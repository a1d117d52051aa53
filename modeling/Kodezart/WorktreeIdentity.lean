import Kodezart.ByteFraming
import Kodezart.Fallible
import Kodezart.JsonText

/-! The identity read of a retained worktree: the index listing, then every tracked and
untracked path with what stands there, folded into one stream. -/
namespace Kodezart.WorktreeIdentity
open ByteFraming PercentEncoding

def ascii (text : String) : Bytes := utf8 text.toList

/-- `stat.S_IFMT` -/
def fileFormat (mode : Nat) : Nat := mode &&& 0o170000

def isLink (mode : Nat) : Bool := fileFormat mode = 0o120000
def isRegular (mode : Nat) : Bool := fileFormat mode = 0o100000
def isDirectory (mode : Nat) : Bool := fileFormat mode = 0o040000

/-- What a directory holds under a name; `sealed` is a name no call succeeds on. -/
inductive FileNode where
  | directory (mode : Nat) (typed : isDirectory mode) (entries : List (Bytes × FileNode))
  | link (mode : Nat) (typed : isLink mode) (target : Bytes)
  | regular (mode : Nat) (typed : isRegular mode) (content : Bytes)
  | special (mode : Nat) (typed : ¬isDirectory mode ∧ ¬isLink mode ∧ ¬isRegular mode)
  | sealed

abbrev Directory := List (Bytes × FileNode)

structure Worktree where
  index : Bytes
  untracked : Bytes
  root : Directory

inductive Refusal where
  | workspaceError (message : Text)
  | osError
  | overflow
  deriving DecidableEq, Repr

def workspaceError (message : String) : Refusal := .workspaceError message.toList

/-- The name an index entry tracks. -/
def trackedName (entry : Bytes) : Except Refusal Bytes :=
  let tab := '\t'.toUInt8
  if tab ∉ entry then .error (workspaceError "Git returned a malformed index entry")
  else
    let fields := (entry.takeWhile (· ≠ tab)).splitOn ' '.toUInt8
    if fields.length ≠ 4 then .error (workspaceError "Git returned malformed index metadata")
    else if fields[1]? = some (ascii "160000") then
      .error (workspaceError "Native checkpoint ownership of gitlinks is unavailable")
    else .ok (entry.dropWhile (· ≠ tab)).tail

def worktreePaths (tree : Worktree) : Except Refusal (Finset Bytes) := do
  let tracked ← ((tree.index.splitOn 0).filter (· ≠ [])).mapM trackedName
  .ok (((tree.untracked.splitOn 0).filter (· ≠ [])).toFinset ∪ tracked.toFinset)

def parts (name : Bytes) : List Bytes := name.splitOn '/'.toUInt8

def misnamed (name : Bytes) : Bool :=
  name.head? = some '/'.toUInt8 || (parts name).any fun part => part = [] || part = ascii "." || part = ascii ".."

def entry (directory : Directory) (name : Bytes) : Option FileNode :=
  (directory.find? (·.1 = name)).map (·.2)

/-- Opens every directory component without following links, then stats the leaf; `none` where
a component or the leaf is not there. -/
def stand (directory : Directory) : List Bytes → Except Refusal (Option FileNode)
  | [] => .ok none
  | [leaf] =>
    match entry directory leaf with
    | some .sealed => .error .osError
    | found => .ok found
  | part :: rest =>
    match entry directory part with
    | none => .ok none
    | some (.directory _ _ entries) => stand entries rest
    | some _ => .error .osError

def FileNode.mode : FileNode → Nat
  | .directory mode _ _ | .link mode _ _ | .regular mode _ _ | .special mode _ => mode
  | .sealed => 0

def readlink : FileNode → Except Refusal Bytes
  | .link _ _ target => .ok target
  | _ => .error .osError

def readFile : FileNode → Except Refusal Bytes
  | .regular _ _ content => .ok content
  | _ => .error .osError

/-- `digest.update` of a string after its length -/
def add (stream value : Bytes) : Except Refusal Bytes :=
  if value.length < 256 ^ fieldWidth then .ok (stream ++ framed value) else .error .overflow

def decimal (n : Nat) : Bytes := utf8 (Nat.toDigits 10 n)

section Identity
variable (fileDigest : Bytes → Bytes)

def addPath (root : Directory) (stream : Bytes) (name : Bytes) : Except Refusal Bytes := do
  if misnamed name then .error (workspaceError "Git returned an invalid relative worktree path")
  else
    let stream ← add stream name
    match ← stand root (parts name) with
    | none => add stream (ascii "missing")
    | some node =>
      let stream ← add stream (decimal node.mode)
      if isLink node.mode then add stream (← readlink node)
      else if isRegular node.mode then add stream (fileDigest (← readFile node))
      else if isDirectory node.mode then .ok stream
      else .error (workspaceError "A native worktree contains an unsupported file type")

/-- What the content digest of a worktree is taken of. -/
def identityStream (tree : Worktree) : Except Refusal Bytes := do
  let paths ← worktreePaths tree
  let stream ← add [] tree.index
  (paths.sort (· ≤ ·)).foldlM (addPath fileDigest tree.root) stream

end Identity

/-- What stands at a path the digest covers: its presence, its mode, its link target or content. -/
inductive Standing where
  | missing
  | directory (mode : Nat) (typed : isDirectory mode)
  | link (mode : Nat) (typed : isLink mode) (target : Bytes)
  | regular (mode : Nat) (typed : isRegular mode) (content : Bytes)
  deriving DecidableEq

def FileNode.standing : FileNode → Option Standing
  | .directory mode typed _ => some (.directory mode typed)
  | .link mode typed target => some (.link mode typed target)
  | .regular mode typed content => some (.regular mode typed content)
  | .special _ _ | .sealed => none

def standing (root : Directory) (name : Bytes) : Option Standing :=
  match stand root (parts name) with
  | .ok none => some .missing
  | .ok (some node) => node.standing
  | .error _ => none

theorem directoryOnly {mode : Nat} (typed : isDirectory mode) : isLink mode = false ∧ isRegular mode = false := by
  have format : fileFormat mode = 0o040000 := by simpa [isDirectory] using typed
  simp [isLink, isRegular, format]

theorem regularOnly {mode : Nat} (typed : isRegular mode) : isLink mode = false := by
  have format : fileFormat mode = 0o100000 := by simpa [isRegular] using typed
  simp [isLink, format]

theorem decimalInjective : Function.Injective decimal := by
  intro n m same
  have digits := utf8Injective same
  rw [← Nat.ofDigitChars_ten_toDigits (n := n), ← Nat.ofDigitChars_ten_toDigits (n := m), digits]

theorem decimalPresent (mode : Nat) : decimal mode ≠ ascii "missing" := by
  intro same
  have digits := utf8Injective same
  have letter : 'm' ∈ Nat.toDigits 10 mode := by
    rw [digits]
    decide
  exact absurd (JsonText.digitOfToDigits letter) (by decide)

section Decoding
variable {fileDigest : Bytes → Bytes}

def Standing.strings (fileDigest : Bytes → Bytes) : Standing → List Bytes
  | .missing => [ascii "missing"]
  | .directory mode _ => [decimal mode]
  | .link mode _ target => [decimal mode, target]
  | .regular mode _ content => [decimal mode, fileDigest content]

/-- The strings folded in for one path. -/
def record (fileDigest : Bytes → Bytes) (shown : Bytes × Standing) : List Bytes :=
  shown.1 :: shown.2.strings fileDigest

/-- The tag says how many strings follow it, so what stands at a path is told by its strings. -/
theorem stringsApart (collisionFree : Function.Injective fileDigest) {shown other : Standing} {rest more : List Bytes}
    (same : shown.strings fileDigest ++ rest = other.strings fileDigest ++ more) : shown = other ∧ rest = more := by
  have tags := congrArg List.head? same
  cases shown with
  | missing =>
    cases other with
    | missing => exact ⟨rfl, List.append_cancel_left same⟩
    | directory mode typed | link mode typed target | regular mode typed content =>
      exact absurd (Option.some.inj tags).symm (decimalPresent mode)
  | directory mode typed =>
    cases other with
    | missing => exact absurd (Option.some.inj tags) (decimalPresent mode)
    | directory mode' typed' =>
      obtain rfl := decimalInjective (Option.some.inj tags)
      exact ⟨rfl, List.append_cancel_left same⟩
    | link mode' typed' target =>
      obtain rfl := decimalInjective (Option.some.inj tags)
      rw [(directoryOnly typed).1] at typed'
      cases typed'
    | regular mode' typed' content =>
      obtain rfl := decimalInjective (Option.some.inj tags)
      rw [(directoryOnly typed).2] at typed'
      cases typed'
  | link mode typed target =>
    cases other with
    | missing => exact absurd (Option.some.inj tags) (decimalPresent mode)
    | directory mode' typed' =>
      obtain rfl := decimalInjective (Option.some.inj tags)
      rw [(directoryOnly typed').1] at typed
      cases typed
    | link mode' typed' target' =>
      obtain rfl := decimalInjective (Option.some.inj tags)
      obtain ⟨targets, rests⟩ := List.cons.inj (List.cons.inj same).2
      obtain rfl : target = target' := targets
      exact ⟨rfl, rests⟩
    | regular mode' typed' content =>
      obtain rfl := decimalInjective (Option.some.inj tags)
      rw [regularOnly typed'] at typed
      cases typed
  | regular mode typed content =>
    cases other with
    | missing => exact absurd (Option.some.inj tags) (decimalPresent mode)
    | directory mode' typed' =>
      obtain rfl := decimalInjective (Option.some.inj tags)
      rw [(directoryOnly typed').2] at typed
      cases typed
    | link mode' typed' target =>
      obtain rfl := decimalInjective (Option.some.inj tags)
      rw [regularOnly typed] at typed'
      cases typed'
    | regular mode' typed' content' =>
      obtain rfl := decimalInjective (Option.some.inj tags)
      obtain ⟨digests, rests⟩ := List.cons.inj (List.cons.inj same).2
      obtain rfl := collisionFree digests
      exact ⟨rfl, rests⟩

theorem recordApart (collisionFree : Function.Injective fileDigest) : ApartCode (record fileDigest) := by
  refine ⟨?_, fun shown empty => List.cons_ne_nil _ _ empty⟩
  intro shown other rest more same
  obtain ⟨names, strings⟩ := List.cons.inj same
  obtain ⟨standings, rests⟩ := stringsApart collisionFree strings
  exact ⟨Prod.ext names standings, rests⟩

/-- The strings a stream was grown by, each short enough for its length field. -/
structure Grown (stream next : Bytes) (strings : List Bytes) : Prop where
  folded : next = stream ++ strings.flatMap framed
  short : ∀ value ∈ strings, value.length < 256 ^ fieldWidth

theorem Grown.trans {stream middle next : Bytes} {strings more : List Bytes} (first : Grown stream middle strings)
    (second : Grown middle next more) : Grown stream next (strings ++ more) where
  folded := by rw [second.folded, first.folded, List.flatMap_append, List.append_assoc]
  short value member := (List.mem_append.mp member).elim (first.short value) (second.short value)

theorem addGrows {stream next value : Bytes} (added : add stream value = .ok next) : Grown stream next [value] := by
  unfold add at added
  split at added
  · next short =>
    refine ⟨?_, by simpa using short⟩
    rw [List.flatMap_singleton]
    exact (Except.ok.inj added).symm
  · cases added

theorem Grown.refl (stream : Bytes) : Grown stream stream [] := ⟨by simp, by simp⟩

/-- One path of the walk: what it shows, and the strings it folds in. -/
theorem addPathGrows {root : Directory} {stream next name : Bytes} (added : addPath fileDigest root stream name = .ok next) :
    ∃ shown, standing root name = some shown ∧ Grown stream next (record fileDigest (name, shown)) := by
  unfold addPath at added
  split at added
  · cases added
  · obtain ⟨named, names, added⟩ := bindOk.mp added
    obtain ⟨found, stands, added⟩ := bindOk.mp added
    cases found with
    | none =>
      refine ⟨.missing, by rw [standing, stands], ?_⟩
      exact (addGrows names).trans (addGrows added)
    | some node =>
      obtain ⟨moded, modes, added⟩ := bindOk.mp added
      have header := (addGrows names).trans (addGrows modes)
      cases node with
      | directory mode typed entries =>
        refine ⟨.directory mode typed, by rw [standing, stands]; rfl, ?_⟩
        have only := directoryOnly typed
        simp [FileNode.mode, only, typed] at added
        subst added
        exact header
      | link mode typed target =>
        refine ⟨.link mode typed target, by rw [standing, stands]; rfl, ?_⟩
        simp only [FileNode.mode, typed, if_true] at added
        exact header.trans (addGrows added)
      | regular mode typed content =>
        refine ⟨.regular mode typed content, by rw [standing, stands]; rfl, ?_⟩
        simp only [FileNode.mode, regularOnly typed, typed, if_true] at added
        exact header.trans (addGrows added)
      | special mode typed =>
        simp [FileNode.mode, typed] at added
      | «sealed» => simp [FileNode.mode, isLink, isRegular, isDirectory, fileFormat] at added

/-- The whole walk: what every path showed, in the order of the names. -/
theorem walkGrows {root : Directory} {stream next : Bytes} {names : List Bytes}
    (walked : names.foldlM (addPath fileDigest root) stream = .ok next) :
    ∃ shown : List (Bytes × Standing), shown.map Prod.fst = names ∧
      (∀ found ∈ shown, standing root found.1 = some found.2) ∧
      Grown stream next (shown.flatMap (record fileDigest)) := by
  induction names generalizing stream with
  | nil =>
    obtain rfl : stream = next := Except.ok.inj walked
    exact ⟨[], rfl, by simp, .refl stream⟩
  | cons name names ih =>
    rw [List.foldlM_cons] at walked
    obtain ⟨middle, added, rest⟩ := bindOk.mp walked
    obtain ⟨first, stands, grown⟩ := addPathGrows added
    obtain ⟨shown, named, found, later⟩ := ih rest
    refine ⟨(name, first) :: shown, by rw [List.map_cons, named], ?_, ?_⟩
    · exact List.forall_mem_cons.mpr ⟨stands, found⟩
    · rw [List.flatMap_cons]
      exact grown.trans later

/-- What an identity read that reached its digest went through. -/
theorem identityRead {tree : Worktree} {stream : Bytes} (read : identityStream fileDigest tree = .ok stream) :
    ∃ (paths : Finset Bytes) (shown : List (Bytes × Standing)), worktreePaths tree = .ok paths ∧ shown.map Prod.fst = paths.sort (· ≤ ·) ∧
      (∀ found ∈ shown, standing tree.root found.1 = some found.2) ∧
      Grown [] stream (tree.index :: shown.flatMap (record fileDigest)) := by
  obtain ⟨paths, listed, read⟩ := bindOk.mp read
  obtain ⟨first, added, walked⟩ := bindOk.mp read
  obtain ⟨shown, named, found, grown⟩ := walkGrows walked
  exact ⟨paths, shown, listed, named, found, (addGrows added).trans grown⟩

/-- Two worktrees folded into one stream have the same index listing and the same paths, with
the same thing standing at each. -/
theorem identityTells (collisionFree : Function.Injective fileDigest) {tree other : Worktree} {stream : Bytes}
    (read : identityStream fileDigest tree = .ok stream) (read' : identityStream fileDigest other = .ok stream) :
    tree.index = other.index ∧ ∃ paths, worktreePaths tree = .ok paths ∧ worktreePaths other = .ok paths ∧
      ∀ name ∈ paths, ∃ shown, standing tree.root name = some shown ∧ standing other.root name = some shown := by
  obtain ⟨paths, shown, listed, named, found, grown⟩ := identityRead read
  obtain ⟨paths', shown', listed', named', found', grown'⟩ := identityRead read'
  have strings := framesInjective grown.short grown'.short (grown.folded.symm.trans grown'.folded)
  obtain ⟨indexes, records⟩ := List.cons.inj strings
  obtain rfl := (recordApart collisionFree).flatMapInjective records
  have sorted : paths.sort (· ≤ ·) = paths'.sort (· ≤ ·) := named.symm.trans named'
  have same : paths = paths' := by rw [← paths.sort_toFinset (· ≤ ·), sorted, paths'.sort_toFinset]
  subst same
  refine ⟨indexes, paths, listed, listed', ?_⟩
  intro name member
  rw [← Finset.mem_sort (· ≤ ·), ← named] at member
  obtain ⟨entry, shows, rfl⟩ := List.mem_map.mp member
  exact ⟨entry.2, found entry shows, found' entry shows⟩

end Decoding

/-- The digest of an empty file, and some string for every other content. -/
def emptyDigest (content : Bytes) : Bytes :=
  if content = [] then
    [0xe3, 0xb0, 0xc4, 0x42, 0x98, 0xfc, 0x1c, 0x14, 0x9a, 0xfb, 0xf4, 0xc8, 0x99, 0x6f, 0xb9, 0x24,
      0x27, 0xae, 0x41, 0xe4, 0x64, 0x9b, 0x93, 0x4c, 0xa4, 0x95, 0x99, 0x1b, 0x78, 0x52, 0xb8, 0x55]
  else 0 :: content

theorem emptyDigestInjective : Function.Injective emptyDigest := by
  intro content other same
  unfold emptyDigest at same
  split at same <;> split at same
  · next left right => rw [left, right]
  · cases (List.cons.inj same).1
  · cases (List.cons.inj same).1
  · exact (List.cons.inj same).2

def emptyTracked (ignored : Directory) : Worktree where
  index := ascii "H 100644 e69de29bb2d1d6434b8b29ae775ad8c2e48c5391 0\tnote\x00"
  untracked := []
  root := (ascii "note", .regular 0o100644 (by decide) []) :: ignored

theorem emptyTrackedPaths (ignored : Directory) : worktreePaths (emptyTracked ignored) = .ok {ascii "note"} := by
  rfl

theorem emptyTrackedRead (ignored : Directory) : identityStream emptyDigest (emptyTracked ignored) =
    .ok ((emptyTracked ignored).index :: record emptyDigest (ascii "note", .regular 0o100644 (by decide) []) |>.flatMap framed) := by
  rw [identityStream, emptyTrackedPaths]
  simp only [bind, Except.bind, Finset.sort_singleton]
  rfl

theorem ignoredUntold : ∃ shown, standing (emptyTracked []).root (ascii "note") = some shown ∧
    standing (emptyTracked [(ascii "cache", .regular 0o100600 (by decide) [1])]).root (ascii "note") = some shown := by
  obtain ⟨-, paths, listed, -, told⟩ :=
    identityTells emptyDigestInjective (emptyTrackedRead []) (emptyTrackedRead [(ascii "cache", .regular 0o100600 (by decide) [1])])
  rw [emptyTrackedPaths] at listed
  obtain rfl := Except.ok.inj listed
  exact told _ (Finset.mem_singleton_self _)
end Kodezart.WorktreeIdentity
