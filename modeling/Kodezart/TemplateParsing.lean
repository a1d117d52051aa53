import Kodezart.TextLines

/-! The template language of the prompts: its tags, the blocks they open and close, and the
names a checked body must find in its bindings. -/
namespace Kodezart.PromptRendering
open TextLines

structure PromptRenderError where
  message : Text
  missing : List Text
  deriving DecidableEq, Repr

inductive BlockKind where
  | presence | each
  deriving DecidableEq, Repr

def BlockKind.word : BlockKind → Text
  | .presence => "if".toList
  | .each => "each".toList

def BlockKind.read (word : Text) : Option BlockKind :=
  if word = "if".toList then some .presence
  else if word = "each".toList then some .each
  else none

inductive Node where
  | text (text : Text)
  | name (path : Text)
  | block (kind : BlockKind) (path : Text) (body : List Node)
  deriving Repr

inductive Piece where
  | literal (text : Text)
  | tag (inner : Text)
  deriving DecidableEq, Repr

def Piece.flush (text : Text) : List Piece := if text = [] then [] else [.literal text]

mutual
/-- The leftmost opening braces start a tag, and the first closing braces after them end it. -/
def outside (before : Text) : Text → List Piece
  | [] => Piece.flush before
  | '{' :: '{' :: rest => inside before [] rest
  | c :: rest => outside (before ++ [c]) rest

-- Opening braces that nothing closes are literal text.
def inside (before inner : Text) : Text → List Piece
  | [] => Piece.flush (before ++ "\x7b\x7b".toList ++ inner)
  | '}' :: '}' :: rest => Piece.flush before ++ .tag inner :: outside [] rest
  | c :: rest => inside before (inner ++ [c]) rest
end

structure Opened where
  kind : BlockKind
  path : Text
  children : List Node

/-- The blocks still open, innermost first, over the template's own nodes. -/
structure Stack where
  opened : List Opened
  base : List Node

def Stack.append (stack : Stack) (node : Node) : Stack :=
  match stack.opened with
  | [] => { stack with base := stack.base ++ [node] }
  | top :: outer => { stack with opened := { top with children := top.children ++ [node] } :: outer }

def braced (tag : Text) : Text := "\x7b\x7b".toList ++ tag ++ "\x7d\x7d".toList

def parseTag (stack : Stack) (tag : Text) : Except PromptRenderError Stack :=
  match tag with
  | '#' :: words =>
    let path := strip (words.dropWhile (· ≠ ' ')).tail
    match BlockKind.read (words.takeWhile (· ≠ ' ')) with
    | some kind =>
      if path = [] then .error ⟨"Unsupported block tag ".toList ++ braced tag, []⟩
      else .ok { stack with opened := ⟨kind, path, []⟩ :: stack.opened }
    | none => .error ⟨"Unsupported block tag ".toList ++ braced tag, []⟩
  | '/' :: word =>
    match stack.opened with
    | [] => .error ⟨"Unbalanced closing tag ".toList ++ braced tag, []⟩
    | top :: outer =>
      if top.kind.word ≠ word then .error ⟨"Unbalanced closing tag ".toList ++ braced tag, []⟩
      else .ok (Stack.append ⟨outer, stack.base⟩ (.block top.kind top.path top.children))
  | _ => .ok (stack.append (.name tag))

def parsePiece (stack : Stack) : Piece → Except PromptRenderError Stack
  | .literal text => .ok (stack.append (.text text))
  | .tag inner => parseTag stack (strip inner)

def parse (body : Text) : Except PromptRenderError (List Node) := do
  let stack ← (outside [] body).foldlM parsePiece ⟨[], []⟩
  match stack.opened with
  | [] => .ok stack.base
  | top :: _ =>
    .error ⟨"Unclosed \x7b\x7b#".toList ++ top.kind.word ++ "\x7d\x7d block in template".toList, []⟩

def itemName : Text := "this".toList
def indexName : Text := "@index1".toList

def head (path : Text) : Text := path.takeWhile (· ≠ '.')

def parts (path : Text) : List Text :=
  let rest := (path.dropWhile (· ≠ '.')).tail
  if rest = [] then [] else rest.splitOn '.'

/-- A path rooted at a name an enclosing each-frame supplies. -/
def isLoopLocal (path : Text) (inEach : Bool) : Bool :=
  inEach && (head path = itemName || head path = indexName)

def note (names : Finset Text) (path : Text) (inEach : Bool) : Finset Text :=
  if isLoopLocal path inEach then names else insert path names

mutual
def collectNode (names : Finset Text) (inEach : Bool) : Node → Finset Text
  | .text _ => names
  | .name path => note names path inEach
  | .block kind path body => collectFree (note names path inEach) (inEach || kind = .each) body

def collectFree (names : Finset Text) (inEach : Bool) : List Node → Finset Text
  | [] => names
  | node :: rest => collectFree (collectNode names inEach node) inEach rest
end

def freeBindingNames (body : Text) : Except PromptRenderError (Finset Text) := do
  .ok (collectFree ∅ false (← parse body))

/-- The places of a template, with whether an each-block encloses them. -/
inductive Stands : List Node → Bool → Node → Bool → Prop where
  | here {nodes node} (inEach) (member : node ∈ nodes) : Stands nodes inEach node inEach
  | inside {nodes inEach kind path body node flag} (member : .block kind path body ∈ nodes)
      (deeper : Stands body (inEach || kind = .each) node flag) : Stands nodes inEach node flag

def Node.path? : Node → Option Text
  | .text _ => none
  | .name path => some path
  | .block _ path _ => some path

theorem noteKeeps {names : Finset Text} {path other : Text} {inEach : Bool} (member : other ∈ names) :
    other ∈ note names path inEach := by
  unfold note
  split
  · exact member
  · exact Finset.mem_insert_of_mem member

theorem noteAdds (names : Finset Text) {path : Text} {inEach : Bool} (free : isLoopLocal path inEach = false) :
    path ∈ note names path inEach := by
  simp [note, free]

mutual
theorem collectNodeKeeps {names : Finset Text} {other : Text} (inEach : Bool) :
    ∀ node, other ∈ names → other ∈ collectNode names inEach node
  | .text _, member => member
  | .name _, member => noteKeeps member
  | .block _ _ body, member => collectFreeKeeps _ body (noteKeeps member)

theorem collectFreeKeeps {names : Finset Text} {other : Text} (inEach : Bool) :
    ∀ nodes, other ∈ names → other ∈ collectFree names inEach nodes
  | [], member => member
  | node :: rest, member => collectFreeKeeps inEach rest (collectNodeKeeps inEach node member)
end

theorem collectFreeMember {other : Text} {inEach : Bool} {node : Node} {nodes : List Node} (member : node ∈ nodes)
    (collected : ∀ names, other ∈ collectNode names inEach node) (names : Finset Text) :
    other ∈ collectFree names inEach nodes := by
  induction nodes generalizing names with
  | nil => simp at member
  | cons first rest ih =>
    rcases List.mem_cons.mp member with rfl | later
    · exact collectFreeKeeps inEach rest (collected names)
    · exact ih later (collectNode names inEach first)

/-- A path the template reads at a place where no each-frame supplies it. -/
def FreeIn (nodes : List Node) (inEach : Bool) (path : Text) : Prop :=
  ∃ node flag, Stands nodes inEach node flag ∧ node.path? = some path ∧ isLoopLocal path flag = false

theorem Stands.mono {nodes more : List Node} {inEach flag : Bool} {node : Node} (stands : Stands nodes inEach node flag)
    (sub : ∀ node ∈ nodes, node ∈ more) : Stands more inEach node flag := by
  cases stands with
  | here inEach member => exact .here inEach (sub _ member)
  | inside member deeper => exact .inside (sub _ member) deeper

theorem FreeIn.mono {nodes more : List Node} {inEach : Bool} {path : Text} (free : FreeIn nodes inEach path)
    (sub : ∀ node ∈ nodes, node ∈ more) : FreeIn more inEach path := by
  obtain ⟨node, flag, stands, named, loose⟩ := free
  exact ⟨node, flag, stands.mono sub, named, loose⟩

theorem freeHere {nodes : List Node} {inEach : Bool} {node : Node} {path : Text} (member : node ∈ nodes)
    (named : node.path? = some path) (loose : isLoopLocal path inEach = false) : FreeIn nodes inEach path :=
  ⟨node, inEach, .here inEach member, named, loose⟩

theorem FreeIn.inside {nodes body : List Node} {inEach : Bool} {kind : BlockKind} {path other : Text}
    (member : .block kind path body ∈ nodes) (free : FreeIn body (inEach || kind = .each) other) : FreeIn nodes inEach other := by
  obtain ⟨node, flag, stands, named, loose⟩ := free
  exact ⟨node, flag, .inside member stands, named, loose⟩

/-- Every free place is collected. -/
theorem standsCollected {nodes : List Node} {inEach flag : Bool} {node : Node} {path : Text} (stands : Stands nodes inEach node flag)
    (named : node.path? = some path) (free : isLoopLocal path flag = false) (names : Finset Text) :
    path ∈ collectFree names inEach nodes := by
  induction stands generalizing names with
  | @here nodes node inEach member =>
    apply collectFreeMember member
    intro names
    cases node with
    | text text => simp [Node.path?] at named
    | name other =>
      obtain rfl : other = path := by simpa [Node.path?] using named
      exact noteAdds names free
    | block kind other body =>
      obtain rfl : other = path := by simpa [Node.path?] using named
      exact collectFreeKeeps _ body (noteAdds names free)
  | inside member deeper ih =>
    apply collectFreeMember member
    intro names
    exact ih named free _

theorem freeCollected {nodes : List Node} {inEach : Bool} {path : Text} (free : FreeIn nodes inEach path) (names : Finset Text) :
    path ∈ collectFree names inEach nodes := by
  obtain ⟨node, flag, stands, named, loose⟩ := free
  exact standsCollected stands named loose names

end Kodezart.PromptRendering
