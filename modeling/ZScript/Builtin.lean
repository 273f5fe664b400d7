/-!
# Builtin types

The catalog of the language's builtin types: 29 entries, each with its kind, its width in bits,
and for `string` the script struct that holds its methods. Names are looked up without regard to
ASCII case; an entry is referred to by its position in the catalog.
-/

namespace ZScript

/-- The broad class of a builtin type. -/
inductive BuiltinKind where
  | string | integer | float | vector | array | «class» | readonly | void | object
  deriving DecidableEq, Repr, Inhabited

/-- The kind's tag as written in reports (`Integer`, `Vector`). -/
def BuiltinKind.tag : BuiltinKind → String
  | .string => "String" | .integer => "Integer" | .float => "Float" | .vector => "Vector"
  | .array => "Array" | .class => "Class" | .readonly => "Readonly" | .void => "Void"
  | .object => "Object"

/-- One builtin type. -/
structure Builtin where
  name : String
  kind : BuiltinKind
  bits : Nat
  /-- The script struct that holds the methods of values of this type. -/
  methods : Option String := none
  deriving DecidableEq, Repr, Inhabited

namespace Builtin

/-- The catalog, in its fixed order. -/
def catalog : List Builtin :=
  [⟨"int", .integer, 32, none⟩, ⟨"uint", .integer, 32, none⟩, ⟨"int8", .integer, 8, none⟩,
   ⟨"uint8", .integer, 8, none⟩, ⟨"int16", .integer, 16, none⟩, ⟨"uint16", .integer, 16, none⟩,
   ⟨"sbyte", .integer, 8, none⟩, ⟨"byte", .integer, 8, none⟩, ⟨"short", .integer, 16, none⟩,
   ⟨"ushort", .integer, 16, none⟩, ⟨"bool", .integer, 1, none⟩, ⟨"float", .float, 64, none⟩,
   ⟨"double", .float, 64, none⟩, ⟨"float64", .float, 64, none⟩,
   ⟨"string", .string, 0, some "StringStruct"⟩, ⟨"name", .string, 0, none⟩,
   ⟨"sound", .string, 0, none⟩, ⟨"color", .integer, 32, none⟩, ⟨"spriteid", .integer, 32, none⟩,
   ⟨"textureid", .integer, 32, none⟩, ⟨"state", .object, 64, none⟩,
   ⟨"voidptr", .object, 64, none⟩, ⟨"vector2", .vector, 128, none⟩,
   ⟨"vector3", .vector, 192, none⟩, ⟨"void", .void, 0, none⟩, ⟨"array", .array, 0, none⟩,
   ⟨"map", .array, 0, none⟩, ⟨"class", .class, 64, none⟩, ⟨"readonly", .readonly, 0, none⟩]

/-- The position of the entry named `name`, in any ASCII case. -/
def find? (name : String) : Option Nat := catalog.findIdx? (·.name == name.toLower)

/-- The entry at a position. -/
def get? (index : Nat) : Option Builtin := catalog[index]?

/-- The entry named `name`, in any ASCII case. -/
def lookup? (name : String) : Option Builtin := (find? name).bind get?

/-- Whether `name` is a builtin integer or floating type. -/
def isNumeric (name : String) : Bool :=
  match lookup? name with
  | some b => b.kind == .integer || b.kind == .float
  | none => false

end Builtin

end ZScript
