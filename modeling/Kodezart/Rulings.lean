import Kodezart.CriterionLifecycle
import Kodezart.JsonRecords
import Kodezart.MarkedComments

/-! The configured comment representation of a pinned fire-time ruling, and the records one pass
over a fire's answers still owes the tracker. -/
namespace Kodezart.Rulings
open TextLines JsonText JsonCodec CommentMarkers

abbrev RulingId := String

inductive RulingError where
  | rulingUnrecorded (issueKey : String) (reason : Text)
  | valueError (message : String)
  | marker (error : MarkerError)
  deriving DecidableEq, Repr

inductive RulingAuthor where
  | machine | principal
  deriving DecidableEq, Repr

inductive RulingClass where
  | pinReading | pinArtifact | regroundPremise | resolveContradiction
  deriving DecidableEq, Repr

/-- `PurePosixPath(name).suffix` of one path component. -/
def suffix (name : Text) : Text :=
  let ending := name.reverse.takeWhile (· ≠ '.')
  if ending = [] ∨ name.length ≤ ending.length + 1 then [] else '.' :: ending.reverse

def pathParts (path : Text) : List Text := (path.splitOn '/').filter fun part => part ≠ [] ∧ part ≠ ['.']

section References
variable (isIdentifier : Text → Bool)

/-- A path as `PurePosixPath` spells it, relative and of Python source, and a dotted name. -/
def canonicalReference (path qualifiedName : String) : Bool :=
  let parts := pathParts path.toList
  path.toList.head? ≠ some '/' && ['/'].intercalate parts = path.toList && "..".toList ∉ parts &&
    Char.ofNat 0 ∉ path.toList && parts.getLast?.map suffix = some ".py".toList &&
    (qualifiedName.toList.splitOn '.').all isIdentifier

structure RulingProtectedTestRef where
  sourceRef : VisibleStr
  path : NonemptyStr
  qualifiedName : NonemptyStr
  canonical : canonicalReference isIdentifier path.val qualifiedName.val

structure RulingFields where
  rulingId : VisibleStr
  issueRef : VisibleStr
  question : VisibleStr
  rulingClass : RulingClass
  resolution : VisibleStr
  rejectedAlternative : Option VisibleStr
  repoEvidence : List VisibleStr
  authoredBy : RulingAuthor
  supersedes : Option RulingId
  protectedTests : Option (List (RulingProtectedTestRef isIdentifier))

/-- What the model's own validators ask of its fields. -/
structure RulingFields.Valid (fields : RulingFields isIdentifier) : Prop where
  nameRejectedReading : fields.rulingClass = .pinReading ∨ fields.rulingClass = .resolveContradiction →
    fields.rejectedAlternative ≠ none
  supersedeAnotherIdentity : fields.supersedes ≠ some fields.rulingId.val
  ownProtectedTests : ∀ tests ∈ fields.protectedTests, (∀ reference ∈ tests, reference.sourceRef = fields.rulingId) ∧
    (tests.map fun reference => (reference.path, reference.qualifiedName)).Nodup

instance (fields : RulingFields isIdentifier) : Decidable fields.Valid :=
  decidable_of_iff ((fields.rulingClass = .pinReading ∨ fields.rulingClass = .resolveContradiction →
      fields.rejectedAlternative ≠ none) ∧ fields.supersedes ≠ some fields.rulingId.val ∧
      ∀ tests ∈ fields.protectedTests, (∀ reference ∈ tests, reference.sourceRef = fields.rulingId) ∧
        (tests.map fun reference => (reference.path, reference.qualifiedName)).Nodup)
    ⟨fun all => ⟨all.1, all.2.1, all.2.2⟩, fun valid => ⟨valid.1, valid.2, valid.3⟩⟩

structure Ruling extends RulingFields isIdentifier where
  valid : toRulingFields.Valid

def modelValidate (fields : RulingFields isIdentifier) : Option (Ruling isIdentifier) :=
  if valid : fields.Valid then some ⟨fields, valid⟩ else none

end References

/-- One answer as the pre-loop question step is told it, before any identity. -/
structure RulingAnswer where
  issueRef : VisibleStr
  question : VisibleStr
  rulingClass : RulingClass
  resolution : VisibleStr
  rejectedAlternative : Option VisibleStr
  repoEvidence : List VisibleStr
  supersedesQuestion : Option VisibleStr
  deliverable : Option VisibleStr
  deriving DecidableEq

/-- The exact issue/question pair an answer names. -/
def RulingAnswer.address (answer : RulingAnswer) : VisibleStr × VisibleStr := (answer.issueRef, answer.question)

/-! The identity is a digest of the framed pair. -/
section Minting
variable (digest : String → String → RulingId)

def mintRulingId (issueRef question : String) : Except RulingError RulingId :=
  if strip issueRef.toList = [] ∨ strip question.toList = [] then
    .error (.valueError "a ruling requires a nonempty issue reference and question")
  else .ok (digest issueRef question)

variable (isIdentifier : Text → Bool) (repr : Text → Text)

section Owed
variable (subject : String) (recorded : Finset RulingId)

/-- The identity an answer replaces: another one, that the tracker carries an answer for. -/
def superseded (answer : RulingAnswer) (identity : RulingId) : Except RulingError (Option RulingId) :=
  match answer.supersedesQuestion with
  | none => .ok none
  | some question =>
    match mintRulingId digest answer.issueRef.val question.val with
    | .error e => .error e
    | .ok earlier =>
      let issue := repr answer.issueRef.val.toList
      if earlier = identity then
        .error (.rulingUnrecorded subject ("an answer on ".toList ++ issue ++ " supersedes its own question".toList))
      else if earlier ∉ recorded then
        .error (.rulingUnrecorded subject
          ("an answer on ".toList ++ issue ++ " supersedes a question the tracker carries no answer for".toList))
      else .ok (some earlier)

/-- The fields of an answer's record: its authorship is stamped here rather than answered. -/
def stamped (answer : RulingAnswer) (identity : VisibleStr) (superseded : Option RulingId) : RulingFields isIdentifier where
  rulingId := identity
  issueRef := answer.issueRef
  question := answer.question
  rulingClass := answer.rulingClass
  resolution := answer.resolution
  rejectedAlternative := answer.rejectedAlternative
  repoEvidence := answer.repoEvidence
  authoredBy := .machine
  supersedes := superseded
  protectedTests := none

/-- What the loop's body makes of an answer it has not seen the address of: no record where the
tracker already carries the identity. -/
def recordOf (answer : RulingAnswer) : Except RulingError (Option (Ruling isIdentifier)) :=
  match mintRulingId digest answer.issueRef.val answer.question.val with
  | .error e => .error e
  | .ok identity =>
    if identity ∈ recorded then .ok none
    else match superseded digest repr subject recorded answer identity with
      | .error e => .error e
      | .ok superseded =>
        let ruling := if seen : visible identity then
          modelValidate isIdentifier (stamped isIdentifier answer ⟨identity, seen⟩ superseded) else none
        match ruling with
        | none => .error (.rulingUnrecorded subject
            ("an answer on ".toList ++ repr answer.issueRef.val.toList ++ " is not a valid record".toList))
        | some ruling => .ok (some ruling)

structure Pass where
  owed : Dict RulingId (Ruling isIdentifier)
  seen : List (VisibleStr × VisibleStr)

def readAnswer (addressable : Finset String) (pass : Pass isIdentifier) (answer : RulingAnswer) :
    Except RulingError (Pass isIdentifier) :=
  if answer.issueRef.val ∉ addressable then
    .error (.rulingUnrecorded subject (repr answer.issueRef.val.toList ++ " is not a member of this fire".toList))
  else if answer.address ∈ pass.seen then
    .error (.rulingUnrecorded subject
      ("one question on ".toList ++ repr answer.issueRef.val.toList ++ " was answered twice".toList))
  else match recordOf digest isIdentifier repr subject recorded answer with
    | .error e => .error e
    | .ok none => .ok { pass with seen := answer.address :: pass.seen }
    | .ok (some ruling) => .ok ⟨pass.owed.set ruling.rulingId.val ruling, answer.address :: pass.seen⟩

/-- The records this pass still owes the tracker, in identity order. -/
def owedRulings (answers : List RulingAnswer) (addressable : Finset String) : Except RulingError (List (Ruling isIdentifier)) :=
  match answers.foldlM (readAnswer digest isIdentifier repr subject recorded addressable) ⟨[], []⟩ with
  | .error e => .error e
  | .ok pass => .ok (sortBy (fun ruling => ruling.rulingId.val) pass.owed.values)

end Owed

end Minting

/-! The record as its comment spells it. -/

def visibleText : Codec VisibleStr := checked (fun s => visible s) string

def nonemptyText : Codec NonemptyStr := checked (fun s => s ≠ "") string

def rulingClass : Codec RulingClass :=
  named [.pinReading, .pinArtifact, .regroundPremise, .resolveContradiction] fun
    | .pinReading => "pin_reading".toList
    | .pinArtifact => "pin_artifact".toList
    | .regroundPremise => "reground_premise".toList
    | .resolveContradiction => "resolve_contradiction".toList

def rulingAuthor : Codec RulingAuthor := named [.machine, .principal] fun
  | .machine => "machine".toList
  | .principal => "principal".toList

section Comments
variable (isIdentifier : Text → Bool)

def protectedTestFields : Fields (RulingProtectedTestRef isIdentifier) :=
  ((field "sourceRef".toList "source_ref".toList visibleText).and <|
    (field "path".toList "path".toList nonemptyText).and <|
    field "qualifiedName".toList "qualified_name".toList nonemptyText).build
    (fun (sourceRef, path, qualifiedName) =>
      if canonical : canonicalReference isIdentifier path.val qualifiedName.val then
        some ⟨sourceRef, path, qualifiedName, canonical⟩ else none)
    fun reference => (reference.sourceRef, reference.path, reference.qualifiedName)

def rulingFields : Fields (Ruling isIdentifier) :=
  ((field "rulingId".toList "ruling_id".toList visibleText).and <|
    (field "issueRef".toList "issue_ref".toList visibleText).and <|
    (field "question".toList "question".toList visibleText).and <|
    (field "rulingClass".toList "ruling_class".toList rulingClass).and <|
    (field "resolution".toList "resolution".toList visibleText).and <|
    (field "rejectedAlternative".toList "rejected_alternative".toList visibleText.optional).and <|
    (field "repoEvidence".toList "repo_evidence".toList (list visibleText)).and <|
    (field "authoredBy".toList "authored_by".toList rulingAuthor).and <|
    (fieldIfAny "supersedes".toList "supersedes".toList string).and <|
    fieldIfAny "protectedTests".toList "protected_tests".toList (list (object (protectedTestFields isIdentifier)))).build
    (fun (rulingId, issueRef, question, rulingClass, resolution, rejectedAlternative, repoEvidence, authoredBy, supersedes,
        protectedTests) =>
      modelValidate isIdentifier ⟨rulingId, issueRef, question, rulingClass, resolution, rejectedAlternative, repoEvidence,
        authoredBy, supersedes, protectedTests⟩)
    fun ruling => (ruling.rulingId, ruling.issueRef, ruling.question, ruling.rulingClass, ruling.resolution,
      ruling.rejectedAlternative, ruling.repoEvidence, ruling.authoredBy, ruling.supersedes, ruling.protectedTests)

variable (digest : String → String → RulingId) (repr : Text → Text) (prefixes : Prefixes)

/-- Use the question identity as the occurrence key within its lane. -/
def rulingMarker (rulingId : RulingId) (laneKey : Text) : Except MarkerError Text :=
  composeCommentMarker repr prefixes "ruling".toList laneKey (some rulingId.toList)

def requireIdentity (ruling : Ruling isIdentifier) : Except RulingError Unit :=
  match mintRulingId digest ruling.issueRef.val ruling.question.val with
  | .error e => .error e
  | .ok identity =>
    if ruling.rulingId.val ≠ identity then
      .error (.valueError "the ruling identity does not address its exact question")
    else .ok ()

def fenceOpen : Text := "```json\n".toList

def fenceClose : Text := "\n```".toList

def renderRuling (ruling : Ruling isIdentifier) (laneKey : Text) : Except RulingError Text := do
  requireIdentity isIdentifier digest ruling
  let marker ← (rulingMarker repr prefixes ruling.rulingId.val laneKey).mapError .marker
  (markedCommentBody marker
    (fenceOpen ++ render 0 ((object (rulingFields isIdentifier)).encode .byAlias ruling) ++ fenceClose)).mapError .marker

/-- `text.partition(separator)`, which finds its first occurrence. -/
def partitionAt (separator : Text) : Text → Option (Text × Text)
  | [] => if separator = [] then some ([], []) else none
  | c :: rest =>
    if separator <+: c :: rest then some ([], (c :: rest).drop separator.length)
    else (partitionAt separator rest).map fun (before, after) => (c :: before, after)

def parseRuling (body laneKey : Text) : Except RulingError (Ruling isIdentifier) :=
  match partitionAt ('\n' :: fenceOpen) body with
  | none => .error (.valueError "the ruling comment framing is invalid")
  | some (marker, fenced) =>
    if ¬ fenceClose <:+ fenced then .error (.valueError "the ruling comment framing is invalid")
    else
      let payload := fenced.take (fenced.length - fenceClose.length)
      match (loads payload).bind (object (rulingFields isIdentifier)).decode with
      | none => .error (.valueError "the payload is no ruling")
      | some ruling => do
        requireIdentity isIdentifier digest ruling
        let own ← (rulingMarker repr prefixes ruling.rulingId.val laneKey).mapError .marker
        if marker ≠ own then .error (.valueError "the ruling marker does not match its lane and identity")
        else .ok ruling

end Comments

end Kodezart.Rulings
