import ZScript.Proofs.TypeReadings
import ZScript.Proofs.ExprAhead

/-!
# The grammar of a file's skeleton

The first reading of a file accepts the grammar written at the head of the declarations reader:

```text
root   ::= ["version" string] item*
item   ::= "#" "include" string | class | struct | enum | const | ";"
class  ::= ["extend"] "class" ident [":" ident] ["replaces" ident] flag* "{" run "}"
struct ::= "struct" ident flag* "{" run "}"
enum   ::= "enum" ident [":" type] "{" [ident ["=" expr] ("," ident ["=" expr])* [","]] "}"
const  ::= "const" ident "=" expr ";"
flag   ::= a type flag word | ("version" | "deprecated") "(" string ")"
```

Keywords match in any case; `version` and its string, and `#`, `include` and the file name, stand
on one line. The leaves are other languages: `expr` is what the expression reader reads up to its
stop tokens, `type` a plain writing of a type (`TypeText.WrittenAs`, `TypeText.plain`), and `run`
the balanced run up to the first closer at depth zero (`balancedRun`).

Each production is a relation between the tokens it starts at and the tokens that follow it. An
optional part is taken exactly when its first token is there (`Skeleton.Optional`): no part that
follows an optional one in this grammar can start with that token, so this is the grammar above.
An item records what it declares (`TopItem`), and `Tree.topItems` reads the same record off the
children of a tree's root.
-/

namespace ZScript

/-- What a top-level item declares, as the root of the file's tree lists it. -/
inductive TopItem where
  | include (path : String)
  | classDecl (name : String)
  | structDecl (name : String)
  | enumDecl (name : String)
  | constant (name : String)
  deriving DecidableEq, Repr

/-- The item a node of the root stands for: an include, a class, a struct, an enum or a
    constant. -/
def Node.topItem? (node : Node) : Option TopItem :=
  match node.kind with
  | .inclusion path _ => some (.include path)
  | .classDecl _ => some (.classDecl node.name)
  | .structDecl _ => some (.structDecl node.name)
  | .enumDecl _ => some (.enumDecl node.name)
  | .constant _ => some (.constant node.name)
  | _ => none

/-- The items the root of `t` lists, in order. -/
def Tree.topItems (t : Tree) : List (Option TopItem) :=
  (t.children 0).map fun id => (t.get? id).bind Node.topItem?

namespace Skeleton

/-! ## Leaves -/

/-- An identifier. -/
def Ident (ts ts' : List Token) : Prop := ∃ t, ts = t :: ts' ∧ t.kind = .identifier

/-- An expression: the expression reader reads one from `ts`, up to a depth-zero token of a kind
    in `stop`, and leaves `ts'`. -/
def ExprPhrase (stop : List TokenKind) (ts ts' : List Token) : Prop :=
  ∃ e c', ExprParser.expression stop (Cursor.ofList ts) = .ok (e, c') ∧ c'.rest = ts'

/-- A type: a plain writing whose last token closes no list around it. -/
def TypePhrase (ts ts' : List Token) : Prop :=
  ∃ (T : TypeText) (s : List Token), T.WrittenAs false s ∧ T.plain = true ∧ ts = s ++ ts'

/-- A body: `{`, the run up to the first closer at depth zero, and that closer, a `}`. -/
def Body (ts ts' : List Token) : Prop :=
  ∃ o tail close, ts = o :: tail ∧ o.kind = .openCurly ∧
    (balancedRun [] [] tail).2 = close :: ts' ∧ close.kind = .closeCurly

/-- An optional part: `G` after a token that `lead` picks out, taken exactly when such a token
    is next. -/
inductive Optional (lead : Token → Bool) (G : List Token → List Token → Prop) :
    List Token → List Token → Prop
  | skip {ts : List Token} : (∀ t ∈ ts.head?, lead t = false) → Optional lead G ts ts
  | take {t : Token} {ts ts' : List Token} : lead t = true → G ts ts' → Optional lead G (t :: ts) ts'

/-! ## Flags -/

/-- One flag of a class or struct: a type flag word, or `version` or `deprecated` with a string
    in parentheses. -/
inductive Flag : List Token → List Token → Prop
  | word {t : Token} {ts : List Token} : t.kind = .identifier →
      Declarations.typeFlagWords.any t.isKeyword = true → t.isKeyword "version" = false →
      t.isKeyword "deprecated" = false → Flag (t :: ts) ts
  | argument {t op s close : Token} {ts : List Token} :
      (t.isKeyword "version" || t.isKeyword "deprecated") = true → op.kind = .openParen →
      s.kind = .string → close.kind = .closeParen → Flag (t :: op :: s :: close :: ts) ts

/-- The flags of a class or struct, as many as there are. -/
inductive Flags : List Token → List Token → Prop
  | nil {ts : List Token} : (∀ t ∈ ts.head?, t.kind ≠ .identifier) → Flags ts ts
  | cons {ts ts' ts'' : List Token} : Flag ts ts' → Flags ts' ts'' → Flags ts ts''

/-! ## Enum members -/

/-- The members of an enum after its `{`, up to and with its `}`: names, each maybe with `=` and
    a value, separated by commas, with a comma allowed after the last. -/
inductive Members : List Token → List Token → Prop
  | close {t : Token} {ts : List Token} : t.kind = .closeCurly → Members (t :: ts) ts
  | last {t close : Token} {ts ts' : List Token} : t.kind = .identifier →
      Optional (·.kind == .assign) (ExprPhrase [.comma, .closeCurly]) ts (close :: ts') →
      close.kind = .closeCurly → Members (t :: ts) ts'
  | more {t comma : Token} {ts ts' ts'' : List Token} : t.kind = .identifier →
      Optional (·.kind == .assign) (ExprPhrase [.comma, .closeCurly]) ts (comma :: ts') →
      comma.kind = .comma → Members ts' ts'' → Members (t :: ts) ts''

/-! ## Declarations, after their keyword -/

/-- A class after `class`: its name, an optional parent, an optional class it replaces, its flags
    and its body. -/
inductive ClassTail : List Token → List Token → String → Prop
  | mk {name : Token} {ts₁ ts₂ ts₃ ts₄ ts' : List Token} : name.kind = .identifier →
      Optional (·.kind == .colon) Ident ts₁ ts₂ → Optional (·.isKeyword "replaces") Ident ts₂ ts₃ →
      Flags ts₃ ts₄ → Body ts₄ ts' → ClassTail (name :: ts₁) ts' name.text

/-- A struct after `struct`: its name, its flags and its body. -/
inductive StructTail : List Token → List Token → String → Prop
  | mk {name : Token} {ts₁ ts₂ ts' : List Token} : name.kind = .identifier → Flags ts₁ ts₂ →
      Body ts₂ ts' → StructTail (name :: ts₁) ts' name.text

/-- An enum after `enum`: its name, an optional base type, `{` and its members. -/
inductive EnumTail : List Token → List Token → String → Prop
  | mk {name o : Token} {ts₁ ts₂ ts' : List Token} : name.kind = .identifier →
      Optional (·.kind == .colon) TypePhrase ts₁ (o :: ts₂) → o.kind = .openCurly →
      Members ts₂ ts' → EnumTail (name :: ts₁) ts' name.text

/-- A constant after `const`: its name, `=`, its value and `;`. -/
inductive ConstTail : List Token → List Token → String → Prop
  | mk {name eq semi : Token} {ts₁ ts' : List Token} : name.kind = .identifier →
      eq.kind = .assign → ExprPhrase [.semicolon] ts₁ (semi :: ts') → semi.kind = .semicolon →
      ConstTail (name :: eq :: ts₁) ts' name.text

/-- An include after its `#`: `include` and a file name on the line of the `#`. -/
inductive IncludeTail (hash : Token) : List Token → List Token → String → Prop
  | mk {d path : Token} {ts : List Token} : d.isKeyword "include" = true → d.line = hash.line →
      path.kind = .string → path.line = hash.line → IncludeTail hash (d :: path :: ts) ts path.content

/-! ## Items and files -/

/-- One top-level item, with what it declares: an include, a class, a struct, an enum, a constant,
    or a lone `;`, which declares nothing. -/
inductive Item : List Token → List Token → Option TopItem → Prop
  | semicolon {t : Token} {ts : List Token} : t.kind = .semicolon → Item (t :: ts) ts none
  | include {hash : Token} {ts ts' : List Token} {path : String} : hash.kind = .preprocessor →
      IncludeTail hash ts ts' path → Item (hash :: ts) ts' (some (.include path))
  | classDecl {kw : Token} {ts ts' : List Token} {name : String} : kw.isKeyword "class" = true →
      ClassTail ts ts' name → Item (kw :: ts) ts' (some (.classDecl name))
  | extendClass {e kw : Token} {ts ts' : List Token} {name : String} :
      e.isKeyword "extend" = true → kw.isKeyword "class" = true → ClassTail ts ts' name →
      Item (e :: kw :: ts) ts' (some (.classDecl name))
  | structDecl {kw : Token} {ts ts' : List Token} {name : String} : kw.isKeyword "struct" = true →
      StructTail ts ts' name → Item (kw :: ts) ts' (some (.structDecl name))
  | enumDecl {kw : Token} {ts ts' : List Token} {name : String} : kw.isKeyword "enum" = true →
      EnumTail ts ts' name → Item (kw :: ts) ts' (some (.enumDecl name))
  | constant {kw : Token} {ts ts' : List Token} {name : String} : kw.isKeyword "const" = true →
      ConstTail ts ts' name → Item (kw :: ts) ts' (some (.constant name))

/-- Items up to the end of the tokens, with what they declare in order. -/
inductive Items : List Token → List TopItem → Prop
  | nil : Items [] []
  | cons {ts ts' : List Token} {o : Option TopItem} {is : List TopItem} : Item ts ts' o →
      Items ts' is → Items ts (o.toList ++ is)

/-- A whole file: items, after a version and its string on one line if the file starts with
    one. -/
inductive Root : List Token → List TopItem → Prop
  | plain {ts : List Token} {is : List TopItem} : Items ts is → Root ts is
  | versioned {word value : Token} {ts : List Token} {is : List TopItem} :
      word.isKeyword "version" = true → value.kind = .string → value.line = word.line →
      Items ts is → Root (word :: value :: ts) is

end Skeleton

end ZScript
