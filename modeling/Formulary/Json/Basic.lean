/-!
# JSON values

A JSON document as a tree, as a reader of documents delivers it.  An object holds the entries that
the reader keeps of its members, in the order in which they are visited; of a number it is kept only
that it is one.
-/

namespace Formulary

/-- A JSON value. -/
inductive Json where
  | null
  | boolean (b : Bool)
  | number
  | string (s : String)
  | array (items : List Json)
  | object (entries : List (String × Json))
deriving Inhabited

namespace Json

/-- The six kinds of JSON values. -/
inductive Kind where
  | null
  | boolean
  | number
  | string
  | array
  | object
deriving DecidableEq

/-- The name of a kind. -/
def Kind.name : Kind → String
  | .null => "null"
  | .boolean => "boolean"
  | .number => "number"
  | .string => "string"
  | .array => "array"
  | .object => "object"

/-- The kind of a value. -/
def kind : Json → Kind
  | .null => .null
  | .boolean _ => .boolean
  | .number => .number
  | .string _ => .string
  | .array _ => .array
  | .object _ => .object

/-- Whether a value has the form that makes it one of a kind. -/
def HasForm (json : Json) : Kind → Prop
  | .null => json = .null
  | .boolean => ∃ b, json = .boolean b
  | .number => json = .number
  | .string => ∃ s, json = .string s
  | .array => ∃ items, json = .array items
  | .object => ∃ entries, json = .object entries

theorem kind_eq_iff {json : Json} {kind : Kind} :
  json.kind = kind ↔ json.HasForm kind
  := by cases json <;> cases kind <;> simp [Json.kind, HasForm]

end Json

end Formulary
