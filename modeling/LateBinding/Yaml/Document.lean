import LateBinding.Yaml.Token

/-!
# YAML documents

A text holds one document at most. The document is empty, or it is one mapping whose keys and
values are scalars or uses of anchors.
-/

namespace LateBinding.Yaml

/-- A scalar with its tag. -/
structure Scalar where
  style : Style
  tag : Option (List Char)
  text : List Char
deriving DecidableEq

/-- A key or a value. -/
inductive Node
  | scalar (s : Scalar)
  /-- The node with the anchor of a number. -/
  | anchored (number : Nat)
deriving DecidableEq

/-- The anchors of a document. The number of an anchor is how many different names there were
before it, so a name that is given again may share its number with one that comes later. -/
structure Anchors where
  /-- The names and their numbers, newest first. -/
  numbers : List (List Char × Nat)
  /-- The nodes by their numbers, newest first; none for the mapping itself. -/
  nodes : List (Nat × Option Scalar)

namespace Anchors

def size (a : Anchors) : Nat := (a.numbers.map Prod.fst).eraseDups.length

def mark (a : Anchors) (name : Option (List Char)) (node : Option Scalar) : Anchors :=
  match name with
  | none => a
  | some name => ⟨(name, a.size) :: a.numbers, (a.size, node) :: a.nodes⟩

/-- The scalar that a node is or stands for: of those with its number the last. -/
def scalar? (a : Anchors) : Node → Option Scalar
  | .scalar s => some s
  | .anchored number => (a.nodes.lookup number).join

end Anchors

/-! ### Parts of a mapping -/

/-- A part of a mapping. -/
inductive Part
  | key
  | value
  | separator
  | node (n : Node)
deriving DecidableEq

/-- The tag handles of a document and what they stand for. -/
abbrev Handles := List (List Char × List Char)

/-- What stands before a node. -/
structure Properties where
  anchor : Option (List Char)
  tag : Option (List Char)
deriving DecidableEq

/-- No properties. -/
def Properties.none : Properties := ⟨Option.none, Option.none⟩

/-- The tag that a handle and a suffix make up, if the handle is known. -/
def Handles.tag? (h : Handles) (handle suffix : List Char) : Option (List Char) :=
  if handle.isEmpty then some suffix else (h.lookup handle).map (· ++ suffix)

/-- The properties with another one, if there is none of its kind yet; none for a token that
is no property. -/
def Properties.add? (h : Handles) (p : Properties) : Token → Option Properties
  | .anchor name => if p.anchor.isSome then Option.none else some { p with anchor := some name }
  | .tag handle suffix =>
    if p.tag.isSome then Option.none
    else (h.tag? handle suffix).map fun tag => { p with tag := some tag }
  | _ => Option.none

/-- The parts that tokens make up, with properties that stand before the first one. A node
that has properties alone has no place in a mapping for settings. -/
def parts? (h : Handles) (p : Properties) (a : Anchors) :
    List Token → Option (List Part × Anchors)
  | [] => if p = .none then some ([], a) else none
  | .scalar style text :: rest =>
    let s : Scalar := ⟨style, p.tag, text⟩
    (parts? h .none (a.mark p.anchor (some s)) rest).map fun q => (.node (.scalar s) :: q.1, q.2)
  | .reference name :: rest =>
    match a.numbers.lookup name with
    | some number =>
      if p = .none then
        (parts? h .none a rest).map fun q => (.node (.anchored number) :: q.1, q.2)
      else none
    | none => none
  | t :: rest =>
    let mark? : Option Part := match t with
      | .key => some .key
      | .value => some .value
      | .separator => some .separator
      | _ => none
    match mark? with
    | some part =>
      if p = .none then (parts? h p a rest).map fun q => (part :: q.1, q.2) else none
    | none =>
      match p.add? h t with
      | some p => parts? h p a rest
      | none => none

def blockEntries? : List Part → Option (List (Node × Node))
  | [] => some []
  | .key :: .node k :: .value :: .node v :: rest => (blockEntries? rest).map ((k, v) :: ·)
  | _ => none

/-- The entries of a mapping in flow style. A separator may stand after the last one. -/
def flowEntries? : List Part → Option (List (Node × Node))
  | [] => some []
  | [.key, .node k, .value, .node v] => some [(k, v)]
  | .key :: .node k :: .value :: .node v :: .separator :: rest =>
    (flowEntries? rest).map ((k, v) :: ·)
  | _ => none

/-! ### Documents -/

/-- The entries of a document. -/
structure Document where
  entries : List (Node × Node)
  anchors : Anchors

namespace Document

def empty : Document := ⟨[], [], []⟩

/-- What the directives at the start of a document say, and the tokens after them. The version
is given once, and so is each handle. -/
def directives? (isVersionKnown : Bool) (h : Handles) :
    List Token → Option (Handles × List Token)
  | .version major minor :: rest =>
    if isVersionKnown || major ≠ 1 || !(minor = 1 || minor = 2) then none
    else directives? true h rest
  | .tagHandle handle start :: rest =>
    if (h.lookup handle).isSome then none
    else directives? isVersionKnown (h ++ [(handle, start)]) rest
  | rest => some (h, rest)

/-- The tag handles that need no directive. -/
def commonHandles : Handles :=
  [(['!'], ['!']), (['!', '!'], "tag:yaml.org,2002:".toList)]

/-- The properties at the start of a document, and the tokens after them. -/
def properties (h : Handles) (p : Properties) : List Token → Properties × List Token
  | [] => (p, [])
  | t :: rest =>
    match p.add? h t with
    | some p => properties h p rest
    | none => (p, t :: rest)

/-- The document whose mapping has the given tokens, after properties of its own. -/
def ofMapping? (h : Handles) (p : Properties)
    (entries? : List Part → Option (List (Node × Node))) (ts : List Token) : Option Document :=
  match parts? h .none (Anchors.mark ⟨[], []⟩ p.anchor none) ts with
  | none => none
  | some (parts, anchors) => (entries? parts).map (⟨·, anchors⟩)

/-- The document with the given content. Only marks of its end may come after a mapping. -/
def ofContent? (h : Handles) (isEmptyAllowed : Bool) (ts : List Token) : Option Document :=
  let (p, rest) := properties h .none ts
  let isEnd (ts : List Token) : Bool := ts.all (· = .documentEnd)
  let mapping (close : Token) (entries? : List Part → Option (List (Node × Node)))
      (ts : List Token) : Option Document :=
    if isEnd ((ts.dropWhile (· ≠ close)).drop 1) then
      ofMapping? h p entries? (ts.takeWhile (· ≠ close))
    else none
  match rest with
  | .blockStart :: rest => mapping .blockEnd blockEntries? rest
  | .flowStart :: rest => mapping .flowEnd flowEntries? rest
  | rest => if isEnd rest && (isEmptyAllowed || p ≠ .none) then some empty else none

/-- The only document in a text with the given tokens. Unless the text has no tokens, there is
a mark of the start of the document or some content, and directives come before a mark. -/
def ofTokens? (ts : List Token) : Option Document :=
  match directives? false [] ts with
  | none => none
  | some (h, rest) =>
    let known := h ++ commonHandles.filter fun c => (h.lookup c.1).isNone
    match rest with
    | .documentStart :: rest => ofContent? known true rest
    | rest => if rest.length = ts.length then ofContent? known ts.isEmpty rest else none

def read? (cs : List Char) : Option Document := (tokens? cs).bind ofTokens?

end Document

end LateBinding.Yaml
