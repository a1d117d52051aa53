import Mathlib
import Kodezart.Scanning
import Kodezart.TextLines
import Kodezart.Gating

/-! The reference scan: what a content displays, the address tokens of that, and the private
facts their hosts and workspaces match. -/
namespace Kodezart.Outbound
open Scanning
open TextLines (isSpace)

/-- Deployment facts that make a host, or some workspaces of one, private. -/
structure PrivateSurface where
  hosts : List String
  workspaces : Dict String (List String)
  deriving DecidableEq, Repr

structure WebReference where
  host : String
  workspace : Option String
  deriving DecidableEq, Repr

/-- What the URL parser answers of an address. -/
structure Url where
  host : Option String
  path : Option String
  deriving DecidableEq, Repr

def linearWebHosts : List String := ["linear.app", "www.linear.app"]

def asciiDigit (c : Char) : Bool := '0' ≤ c && c ≤ '9'

def asciiAlpha (c : Char) : Bool := ('A' ≤ c && c ≤ 'Z') || ('a' ≤ c && c ≤ 'z')

def hexDigit (c : Char) : Bool := asciiDigit c || ('A' ≤ c && c ≤ 'F') || ('a' ≤ c && c ≤ 'f')

def escapedPunctuation : Text := "!\"#$%&'()*+,-./:;<=>?@[]^_\x60\x7b|\x7d~\\".toList

/-- A run of at least one such character with a semicolon after it. -/
def runLength (inRun : Char → Bool) (text : Text) : Option Nat :=
  let run := text.takeWhile inRun
  if run ≠ [] ∧ (text.drop run.length).head? = some ';' then some (run.length + 1) else none

/-- A punctuation escape or a character reference at the head of a text. -/
def textEscapeAt : Text → Option Nat
  | '\\' :: c :: _ => if c ∈ escapedPunctuation then some 2 else none
  | '&' :: '#' :: x :: rest =>
    if x = 'x' ∨ x = 'X' then (runLength hexDigit rest).map (· + 3) else (runLength asciiDigit (x :: rest)).map (· + 2)
  | '&' :: c :: rest =>
    if asciiAlpha c then (runLength (fun c => asciiAlpha c || asciiDigit c) rest).map (· + 2) else none
  | _ => none

/-- Where an address token stops. -/
def urlStop (c : Char) : Bool := isSpace c || c ∈ ['<', '>', '(', ')', Char.ofNat 0x22, Char.ofNat 0x27, Char.ofNat 0x60]

/-- Every letter the scheme's own matches without regard to case. -/
def schemes : List (List (List Char)) :=
  let http := [['h', 'H'], ['t', 'T'], ['t', 'T'], ['p', 'P']]
  [http ++ [['s', 'S', 'ſ'], [':']], http ++ [[':']], []]

def leads (letters : List (List Char)) (text : Text) : Bool :=
  letters.length ≤ text.length ∧ ∀ e ∈ letters.zip text, e.2 ∈ e.1

/-- The address token at the head of a text, as far as it goes. -/
def urlTokenAt (text : Text) : Option Nat :=
  schemes.findSome? fun scheme =>
    if leads (scheme ++ [['/'], ['/']]) text then
      let body := (text.drop (scheme.length + 2)).takeWhile fun c => !urlStop c
      if body = [] then none else some (scheme.length + 2 + body.length)
    else none

/-- An address without the punctuation that trails it. -/
def normalized (token : Text) : Text := token.rdropWhile (· ∈ ['.', ',', ';', ':', '!', '?'])

def privateReferenceCategory (surface : PrivateSurface) (destination : OutboundDestination) (reference : WebReference) :
    Option RedactionCategory :=
  if reference.host ∈ surface.hosts then some .infraEndpoints
  else if surfaceOf destination ≠ .tracker ∧
      reference.workspace.any (fun workspace => workspace ∈ (surface.workspaces.get? reference.host).getD []) then
    some .trackerUrls
  else none

section Scanner
variable (unescape : Text → Text) (parseUrl : Text → Option Url) (casefold : String → String)
  (unquote : String → Option String)

/-- What an escape displays. -/
def decoded : Text → Text
  | ['\\', c] => [c]
  | escape => unescape escape

/-- The raw characters from one position to another, each displayed as itself. -/
def plain (content : Text) (start stop : Nat) : List (Char × Nat × Nat) :=
  ((content.zipIdx.take stop).drop start).map fun e => (e.1, e.2, e.2 + 1)

def displayFrom (content : Text) (cursor : Nat) : List (Nat × Nat) → List (Char × Nat × Nat)
  | [] => plain content cursor content.length
  | (start, length) :: escapes =>
    plain content cursor start ++
      (decoded unescape ((content.drop start).take length)).map (fun c => (c, start, start + length)) ++
      displayFrom content (start + length) escapes

/-- The displayed characters, each with the raw span it is displayed by. -/
def referenceText (content : Text) : List (Char × Nat × Nat) :=
  displayFrom unescape content 0 (findIter textEscapeAt content)

/-- The addressed host and its decoded native workspace segment. -/
def linearReference (url : Url) : Option WebReference :=
  let host := casefold (String.ofList ((url.host.getD "").toList.rdropWhile (· = '.')))
  let path := match url.path with
    | none | some "" => "/"
    | some path => path
  match path.toList.splitOn '/' with
  | _ :: segment :: _ =>
    if host ∈ linearWebHosts ∧ segment ≠ [] then
      match unquote (String.ofList segment) with
      | none => none
      | some decoded =>
        let workspace := casefold decoded
        if '/' ∈ workspace.toList ∨ '\\' ∈ workspace.toList then none else some ⟨host, some workspace⟩
    else some ⟨host, none⟩
  | _ => some ⟨host, none⟩

/-- The reference an address spells, where the parser can read it. -/
def readAddress (address : Text) : Option WebReference :=
  let absolute := if address.take 2 = ['/', '/'] then "https:".toList ++ address else address
  (parseUrl absolute).bind (linearReference casefold unquote)

def tokenText (text : Text) (token : Nat × Nat) : Text := normalized ((text.drop token.1).take token.2)

variable (surface : PrivateSurface) (destination : OutboundDestination)

/-- What a token's own address is classified as, where it can be read. -/
def tokenCategory (text : Text) (token : Nat × Nat) : Option (Option RedactionCategory) :=
  (readAddress parseUrl casefold unquote (tokenText text token)).map (privateReferenceCategory surface destination)

def referenceHit (displayed : List (Char × Nat × Nat)) (token : Nat × Nat) (category : RedactionCategory) : ScanHit :=
  let address := tokenText (displayed.map Prod.fst) token
  ⟨.redaction category, (displayed[token.1]?).map (·.2.1), (displayed[token.1 + address.length - 1]?).map (·.2.2),
    some "Reference matches a private deployment fact", none, none, by simp⟩

def tokens (content : Text) : List (Nat × Nat) := findIter urlTokenAt ((referenceText unescape content).map Prod.fst)

/-- The hits of the tokens in order, up to one whose address cannot be read. -/
def scanTokens (displayed : List (Char × Nat × Nat)) : List (Nat × Nat) → Option (List ScanHit)
  | [] => some []
  | token :: rest =>
    match tokenCategory parseUrl casefold unquote surface destination (displayed.map Prod.fst) token with
    | none => none
    | some category =>
      (scanTokens displayed rest).map fun hits =>
        (category.map (referenceHit displayed token)).toList ++ hits

def scan (content : String) : ScanResult :=
  match scanTokens parseUrl casefold unquote surface destination (referenceText unescape content.toList)
      (tokens unescape content.toList) with
  | none => ⟨[], some .malformedVerdict, fun _ => rfl⟩
  | some hits => ⟨hits, none, by simp⟩

end Scanner
end Kodezart.Outbound
