/-! # Paths

A `Path` is a text with `/` between its parts.  `Path.components` is its meaning: the empty parts
and the inner `.` parts carry none, so `a//b`, `a/./b` and `a/b/` have the same components.
Paths are compared by `Path.order`, component by component: the root first, then `.`, then `..`,
then names in the order of their characters, a path before its extensions.  `Path.stripAncestor`
and `Path.join` go down and up again by components; both keep the spelling of what they
return. -/

namespace EntityConventions

/-- One step of a path. -/
inductive Component where
  | root
  | current
  | parent
  | name (text : String)
  deriving DecidableEq, Repr

namespace Component

/-- The place of a component's kind in the order of components. -/
def rank : Component → Nat
  | .root => 0
  | .current => 1
  | .parent => 2
  | .name _ => 3

/-- The text of a component. -/
def text : Component → String
  | .root => "/"
  | .current => "."
  | .parent => ".."
  | .name t => t

/-- Components are compared by kind, names by their characters. -/
def order (a b : Component) : Ordering :=
  (compare a.rank b.rank).then (compare a.text b.text)

/-- The name of a named component. -/
def name? : Component → Option String
  | .name t => some t
  | _ => none

end Component

/-- A path, as it is spelled. -/
structure Path where
  text : String
  deriving DecidableEq, Repr

namespace Path

/-! ### Components -/

/-- The parts of a path between slashes; a text without a slash is its only part. -/
def parts (p : Path) : List (List Char) :=
  p.text.toList.splitOn '/'

/-- The path with the given parts. -/
def unparts (ps : List (List Char)) : Path :=
  ⟨String.ofList (['/'].intercalate ps)⟩

/-- Whether a part carries no meaning, apart from the first one. -/
def isSilent (part : List Char) : Bool :=
  part == [] || part == ['.']

/-- The component that a part stands for, apart from the first one. -/
def component? (part : List Char) : Option Component :=
  if isSilent part then none
  else if part = ['.', '.'] then some .parent
  else some (.name (String.ofList part))

/-- What a first part says beyond `component?`: nothing before a slash is the root, and a single
dot stays. -/
def leading (first : List Char) (rest : List (List Char)) : List Component :=
  if first = [] ∧ rest ≠ [] then [.root]
  else if first = ['.'] then [.current]
  else []

/-- The components of the parts of a path. -/
def ofParts : List (List Char) → List Component
  | [] => []
  | first :: rest => leading first rest ++ (first :: rest).filterMap component?

/-- The components of a path. -/
def components (p : Path) : List Component :=
  ofParts p.parts

/-- The named components of a path. -/
def names (p : Path) : List String :=
  p.components.filterMap Component.name?

/-- Whether a path starts at the root. -/
def isAbsolute (p : Path) : Bool :=
  p.text.toList.head? == some '/'

/-! ### Order -/

/-- Paths are compared component by component. -/
def order (p q : Path) : Ordering :=
  List.compareLex Component.order p.components q.components

/-- Whether two paths have the same components. -/
def sameAs (p q : Path) : Bool :=
  p.components == q.components

/-! ### Going down and up -/

/-- Drop the parts that stand for `count` components, and the silent ones before the next. -/
def dropComponents : Nat → List (List Char) → List (List Char)
  | _, [] => []
  | 0, part :: rest => if isSilent part then dropComponents 0 rest else part :: rest
  | n + 1, part :: rest =>
      if isSilent part then dropComponents (n + 1) rest else dropComponents n rest

/-- Drop the silent parts at the end. -/
def trimParts (ps : List (List Char)) : List (List Char) :=
  (ps.reverse.dropWhile isSilent).reverse

/-- The path behind the first `count` components: the text from the next component on, without
the silent parts at its end. -/
def after (count : Nat) (p : Path) : Path :=
  match p.parts with
  | [] => ⟨""⟩
  | first :: rest =>
      match leading first rest, count with
      | [], n => unparts (trimParts (dropComponents n (first :: rest)))
      | .root :: _, 0 =>
          if trimParts rest = [] then ⟨"/"⟩
          else unparts (first :: trimParts rest)
      | _ :: _, 0 => unparts (first :: trimParts rest)
      | _ :: _, n + 1 => unparts (trimParts (dropComponents n (first :: rest)))

/-- The path below an ancestor, if the ancestor's components are the first ones of the path. -/
def stripAncestor (ancestor p : Path) : Option Path :=
  if ancestor.components.isPrefixOf p.components then some (p.after ancestor.components.length)
  else none

/-- A path below a directory; an absolute path stays as it is. -/
def join (base p : Path) : Path :=
  if p.isAbsolute then p
  else
    match base.text.toList.getLast? with
    | none => p
    | some c => if c = '/' then ⟨base.text ++ p.text⟩ else ⟨base.text ++ "/" ++ p.text⟩

/-- Keep the parts that stand for the first `count` components. -/
def takeComponents : Nat → List (List Char) → List (List Char)
  | _, [] => []
  | 0, _ => []
  | n + 1, part :: rest =>
      if isSilent part then part :: takeComponents (n + 1) rest
      else part :: takeComponents n rest

/-- The text of the first `count` components of a path with given parts, as it is spelled. -/
def unpartsUpTo (count : Nat) : List (List Char) → Path
  | [] => ⟨""⟩
  | first :: rest =>
      match leading first rest, count with
      | [], n => unparts (takeComponents n (first :: rest))
      | _ :: _, 0 => ⟨""⟩
      | .root :: _, 1 => ⟨"/"⟩
      | _ :: _, n + 1 => unparts (first :: takeComponents n rest)

/-- The text of the first `count` components, as it is spelled. -/
def upTo (count : Nat) (p : Path) : Path :=
  unpartsUpTo count p.parts

/-- The path without its last component; the root and the empty path have no parent. -/
def parent? (p : Path) : Option Path :=
  match p.components.getLast? with
  | none => none
  | some .root => none
  | some _ => some (p.upTo (p.components.length - 1))

/-- A path and the paths above it, the nearest first. -/
def ancestors (p : Path) : List Path :=
  let parts := p.parts
  let components := ofParts parts
  let above := (List.range components.length).reverse.map (unpartsUpTo · parts)
  match components with
  | .root :: _ => p :: above.dropLast
  | _ => p :: above

end Path

end EntityConventions
