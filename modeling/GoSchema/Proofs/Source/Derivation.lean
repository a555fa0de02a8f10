import GoSchema.Source.Syntax
import GoSchema.Source.Token

/-! # The grammar of declarations

Which tokens derive which syntax, stated without a reader. A separator is a newline or a
semicolon, and a name is a word that is no keyword:

* a file is `sep* [decl (sep+ decl)* sep*]`;
* a declaration is `type Name` and a struct or a type;
* a struct is `struct { sep* [field (sep+ field)* sep*] }`;
* a field is a name with a type, or an embedded type name with or without a star, and may have a
  tag.

The newlines between fields are what remains of the layout.
-/

namespace GoSchema.Source

/-- Tokens each of which ends a declaration or a field. -/
def Separators (ks : List Kind) : Prop :=
  ∀ k ∈ ks, k = .newline ∨ k = .punct .semicolon

theorem separators_newline : Separators [.newline] :=
  List.forall_mem_singleton.mpr (.inl rfl)

theorem separators_blankLine : Separators [.newline, .newline] :=
  List.forall_mem_cons.mpr ⟨.inl rfl, separators_newline⟩

def tagKinds (tag : Option String) : List Kind :=
  (tag.map .str).toList

/-- A name, after the name of its package or not. -/
inductive DerivesTypeName : List Kind → TypeExpr → Prop where
  | plain {name} (free : isKeyword name = false) :
      DerivesTypeName [.word name] (.name none name)
  | qualified {package name} (known : isKeyword package = false) (free : isKeyword name = false) :
      DerivesTypeName [.word package, .punct .dot, .word name] (.name (some package) name)

theorem DerivesTypeName.exists_word {ks : List Kind} {t : TypeExpr}
    (derives : DerivesTypeName ks t) :
    ∃ name more, ks = .word name :: more ∧ isKeyword name = false := by
  cases derives with
  | plain free => exact ⟨_, _, rfl, free⟩
  | qualified known free => exact ⟨_, _, rfl, known⟩

inductive DerivesType : List Kind → TypeExpr → Prop where
  | named {ks t} (name : DerivesTypeName ks t) : DerivesType ks t
  | pointer {ks t} (target : DerivesType ks t) : DerivesType (.punct .star :: ks) (.pointer t)
  | slice {ks t} (element : DerivesType ks t) :
      DerivesType (.punct .leftBracket :: .punct .rightBracket :: ks) (.slice t)
  | map {ks t ls u} (key : DerivesType ks t) (value : DerivesType ls u) :
      DerivesType (.word "map" :: .punct .leftBracket :: (ks ++ .punct .rightBracket :: ls))
        (.map t u)
  | interface {seps} (separators : Separators seps) :
      DerivesType (.word "interface" :: .punct .leftBrace :: (seps ++ [.punct .rightBrace]))
        .interface

/-- No type begins as a struct does. -/
theorem DerivesType.exists_head {ks : List Kind} {t : TypeExpr} (derives : DerivesType ks t) :
    ∃ k more, ks = k :: more ∧ k ≠ .word "struct" := by
  cases derives with
  | named name =>
      obtain ⟨word, more, rfl, free⟩ := name.exists_word
      refine ⟨.word word, more, rfl, ?_⟩
      rintro ⟨⟩
      cases free
  | _ => exact ⟨_, _, rfl, by decide⟩

/-- A field, after a blank line or not. -/
inductive DerivesField (blankBefore : Bool) : List Kind → FieldDecl → Prop where
  | embedded {ks t} (type : DerivesTypeName ks t) (tag : Option String) :
      DerivesField blankBefore (ks ++ tagKinds tag) ⟨none, t, tag, blankBefore⟩
  | embeddedPointer {ks t} (type : DerivesTypeName ks t) (tag : Option String) :
      DerivesField blankBefore (.punct .star :: (ks ++ tagKinds tag))
        ⟨none, .pointer t, tag, blankBefore⟩
  | named {name ks t} (free : isKeyword name = false) (type : DerivesType ks t)
      (tag : Option String) :
      DerivesField blankBefore (.word name :: (ks ++ tagKinds tag))
        ⟨some name, t, tag, blankBefore⟩

/-- What follows a field up to the closing brace, and whether it holds a newline. -/
inductive DerivesMoreFields : List Kind → List FieldDecl → Bool → Prop where
  | last {seps} (separators : Separators seps) :
      DerivesMoreFields seps [] (seps.contains .newline)
  | more {seps ks field rest fields multiline} (separators : Separators seps) (some : seps ≠ [])
      (first : DerivesField (decide (1 < seps.count .newline)) ks field)
      (others : DerivesMoreFields rest fields multiline) :
      DerivesMoreFields (seps ++ (ks ++ rest)) (field :: fields)
        (seps.contains .newline || multiline)

/-- What stands between the braces of a struct, and whether it holds a newline among the
separators. -/
inductive DerivesFields : List Kind → List FieldDecl → Bool → Prop where
  | none {seps} (separators : Separators seps) :
      DerivesFields seps [] (seps.contains .newline)
  | some {seps ks field rest fields multiline} (separators : Separators seps)
      (first : DerivesField false ks field) (others : DerivesMoreFields rest fields multiline) :
      DerivesFields (seps ++ (ks ++ rest)) (field :: fields) (seps.contains .newline || multiline)

inductive DerivesDecl : List Kind → TypeDecl → Prop where
  | type {name ks t} (free : isKeyword name = false) (type : DerivesType ks t) :
      DerivesDecl (.word "type" :: .word name :: ks) ⟨name, .type t⟩
  | struct {name ks fields multiline} (free : isKeyword name = false)
      (body : DerivesFields ks fields multiline) :
      DerivesDecl
        (.word "type" :: .word name :: .word "struct" :: .punct .leftBrace ::
          (ks ++ [.punct .rightBrace]))
        ⟨name, .struct fields multiline⟩

theorem DerivesDecl.exists_more {ks : List Kind} {decl : TypeDecl} (derives : DerivesDecl ks decl) :
    ∃ more, ks = .word "type" :: more := by
  cases derives <;> exact ⟨_, rfl⟩

/-- What follows a declaration up to the end. -/
inductive DerivesMoreDecls : List Kind → List TypeDecl → Prop where
  | last {seps} (separators : Separators seps) : DerivesMoreDecls seps []
  | more {seps ks decl rest decls} (separators : Separators seps) (some : seps ≠ [])
      (first : DerivesDecl ks decl) (others : DerivesMoreDecls rest decls) :
      DerivesMoreDecls (seps ++ (ks ++ rest)) (decl :: decls)

/-- A file, without the token of its end. -/
inductive DerivesFile : List Kind → List TypeDecl → Prop where
  | none {seps} (separators : Separators seps) : DerivesFile seps []
  | some {seps ks decl rest decls} (separators : Separators seps) (first : DerivesDecl ks decl)
      (others : DerivesMoreDecls rest decls) :
      DerivesFile (seps ++ (ks ++ rest)) (decl :: decls)

end GoSchema.Source
