import Mathlib
import Kodezart.TextLines

/-! JSON over characters: values, the printer with an indent of two, and a reader.
What is printed reads back as the value that was printed. -/
namespace Kodezart

inductive Json where
  | null
  | bool (b : Bool)
  | int (n : Int)
  | float (token : Text)
  | string (s : Text)
  | array (items : List Json)
  | object (fields : List (Text × Json))
  deriving Repr

namespace JsonText

/-- The digits an integer may have before its conversion is refused. -/
def intMaxStrDigits : Nat := 4300

def newline (indent : Nat) : Text := '\n' :: List.replicate indent ' '

def escapeChar (c : Char) : Text :=
  if c = '"' then ['\\', '"']
  else if c = '\\' then ['\\', '\\']
  else if c = '\x08' then ['\\', 'b']
  else if c = '\x0c' then ['\\', 'f']
  else if c = '\n' then ['\\', 'n']
  else if c = '\r' then ['\\', 'r']
  else if c = '\t' then ['\\', 't']
  else if c.toNat < 0x20 then
    ['\\', 'u', '0', '0', Nat.digitChar (c.toNat / 16), Nat.digitChar (c.toNat % 16)]
  else [c]

def quoted (s : Text) : Text := '"' :: s.flatMap escapeChar ++ ['"']

def renderInt (n : Int) : Text :=
  if n < 0 then '-' :: Nat.toDigits 10 n.natAbs else Nat.toDigits 10 n.natAbs

/-- An empty container stays on its line; any other puts each part on a line of its own. -/
def bracket (opening closing : Char) (indent : Nat) : List Text → Text
  | [] => [opening, closing]
  | part :: parts =>
    opening :: (newline (indent + 2) ++ part ++
      (parts.flatMap fun next => ',' :: (newline (indent + 2) ++ next)) ++
      newline indent ++ [closing])

mutual
def render (indent : Nat) : Json → Text
  | .null => ['n', 'u', 'l', 'l']
  | .bool true => ['t', 'r', 'u', 'e']
  | .bool false => ['f', 'a', 'l', 's', 'e']
  | .int n => renderInt n
  | .float token => token
  | .string s => quoted s
  | .array items => bracket '[' ']' indent (renderItems (indent + 2) items)
  | .object fields => bracket '\x7b' '\x7d' indent (renderFields (indent + 2) fields)

def renderItems (indent : Nat) : List Json → List Text
  | [] => []
  | item :: items => render indent item :: renderItems indent items

def renderFields (indent : Nat) : List (Text × Json) → List Text
  | [] => []
  | (key, value) :: fields =>
    (quoted key ++ [':', ' '] ++ render indent value) :: renderFields indent fields
end

def jsonSpace (c : Char) : Bool := c = ' ' || c = '\t' || c = '\n' || c = '\r'

def skipSpace (raw : Text) : Text := raw.dropWhile jsonSpace

def hexValue (c : Char) : Option Nat :=
  if '0' ≤ c && c ≤ '9' then some (c.toNat - 48)
  else if 'a' ≤ c && c ≤ 'f' then some (c.toNat - 87)
  else if 'A' ≤ c && c ≤ 'F' then some (c.toNat - 55)
  else none

def hex4 (a b c d : Char) : Option Nat := do
  let a ← hexValue a
  let b ← hexValue b
  let c ← hexValue c
  let d ← hexValue d
  some (((a * 16 + b) * 16 + c) * 16 + d)

def unescape (c : Char) : Option Char :=
  if c = '"' || c = '\\' || c = '/' then some c
  else if c = 'b' then some '\x08'
  else if c = 'f' then some '\x0c'
  else if c = 'n' then some '\n'
  else if c = 'r' then some '\r'
  else if c = 't' then some '\t'
  else none

/-- A string's characters after its opening quote. Half a surrogate pair is no character. -/
def readChars : Text → Option (Text × Text)
  | [] => none
  | c :: rest =>
    if c = '"' then some ([], rest)
    else if c = '\\' then
      match rest with
      | [] => none
      | e :: rest =>
        if e = 'u' then
          match rest with
          | a :: b :: c :: d :: rest =>
            match hex4 a b c d with
            | none => none
            | some code =>
              if 0xd800 ≤ code && code < 0xdc00 then
                match rest with
                | '\\' :: 'u' :: a :: b :: c :: d :: rest =>
                  match hex4 a b c d with
                  | none => none
                  | some low =>
                    if 0xdc00 ≤ low && low < 0xe000 then
                      (readChars rest).map fun (s, rest) =>
                        (Char.ofNat (0x10000 + (code - 0xd800) * 0x400 + (low - 0xdc00)) :: s, rest)
                    else none
                | _ => none
              else if 0xdc00 ≤ code && code < 0xe000 then none
              else (readChars rest).map fun (s, rest) => (Char.ofNat code :: s, rest)
          | _ => none
        else match unescape e with
          | none => none
          | some c => (readChars rest).map fun (s, rest) => (c :: s, rest)
    else if c.toNat < 0x20 then none
    else (readChars rest).map fun (s, rest) => (c :: s, rest)

def readString (raw : Text) : Option (Text × Text) :=
  match raw with
  | '"' :: rest => readChars rest
  | _ => none

/-- `0`, or digits that start with another one. -/
def wholeDigits (raw : Text) : Text :=
  match raw with
  | '0' :: _ => ['0']
  | _ => raw.takeWhile Char.isDigit

def fraction (raw : Text) : Text :=
  match raw with
  | '.' :: rest => if rest.takeWhile Char.isDigit = [] then [] else '.' :: rest.takeWhile Char.isDigit
  | _ => []

def exponent (raw : Text) : Text :=
  match raw with
  | [] => []
  | e :: rest =>
    if e = 'e' || e = 'E' then
      let sign := rest.takeWhile fun c => c = '+' || c = '-'
      let digits := (rest.drop sign.length).takeWhile Char.isDigit
      if sign.length ≤ 1 && digits ≠ [] then e :: (sign ++ digits) else []
    else []

def readNumber (raw : Text) : Option (Json × Text) :=
  let sign := if raw.head? = some '-' then ['-'] else []
  let whole := wholeDigits (raw.drop sign.length)
  let rest := raw.drop (sign.length + whole.length)
  let part := fraction rest
  let power := exponent (rest.drop part.length)
  if whole = [] then none
  else if part ++ power ≠ [] then
    some (.float (sign ++ whole ++ part ++ power), rest.drop (part ++ power).length)
  else if intMaxStrDigits < whole.length then none
  else
    let n : Int := Nat.ofDigitChars 10 whole 0
    some (.int (if sign = [] then n else -n), rest)

/-- The parts of a container, the first of them at hand, up to its closing character. -/
def readParts {α : Type} (part : Text → Option (α × Text)) (closing : Char) :
    Nat → Text → Option (List α × Text)
  | 0, _ => none
  | n + 1, raw =>
    match part raw with
    | none => none
    | some (x, rest) =>
      match skipSpace rest with
      | [] => none
      | c :: rest =>
        if c = closing then some ([x], rest)
        else if c = ',' then (readParts part closing n rest).map fun (xs, rest) => (x :: xs, rest)
        else none

def readContainer {α : Type} (part : Text → Option (α × Text)) (closing : Char) (raw : Text) :
    Option (List α × Text) :=
  match skipSpace raw with
  | [] => none
  | c :: rest =>
    if c = closing then some ([], rest) else readParts part closing raw.length raw

def readField (value : Text → Option (Json × Text)) (raw : Text) :
    Option ((Text × Json) × Text) := do
  let (key, rest) ← readString (skipSpace raw)
  match skipSpace rest with
  | ':' :: rest => (value rest).map fun (v, rest) => ((key, v), rest)
  | _ => none

def readLiteral (literal : Text) (value : Json) (raw : Text) : Option (Json × Text) :=
  if literal <+: raw then some (value, raw.drop literal.length) else none

def readValue : Nat → Text → Option (Json × Text)
  | 0, _ => none
  | fuel + 1, raw =>
    match skipSpace raw with
    | [] => none
    | c :: rest =>
      if c = '"' then (readChars rest).map fun (s, rest) => (.string s, rest)
      else if c = '[' then
        (readContainer (readValue fuel) ']' rest).map fun (xs, rest) => (.array xs, rest)
      else if c = '\x7b' then
        (readContainer (readField (readValue fuel)) '\x7d' rest).map fun (fs, rest) =>
          (.object fs, rest)
      else if c = 'n' then readLiteral ['n', 'u', 'l', 'l'] .null (c :: rest)
      else if c = 't' then readLiteral ['t', 'r', 'u', 'e'] (.bool true) (c :: rest)
      else if c = 'f' then readLiteral ['f', 'a', 'l', 's', 'e'] (.bool false) (c :: rest)
      else readNumber (c :: rest)

/-- One value and nothing but space after it. -/
def parse (raw : Text) : Option Json := do
  let (value, rest) ← readValue (raw.length + 1) raw
  if skipSpace rest = [] then some value else none

mutual
/-- No object repeats a key, at any depth. -/
def uniqueKeys : Json → Bool
  | .array items => uniqueItems items
  | .object fields => (fields.map Prod.fst).Nodup && uniqueFields fields
  | _ => true

def uniqueItems : List Json → Bool
  | [] => true
  | item :: items => uniqueKeys item && uniqueItems items

def uniqueFields : List (Text × Json) → Bool
  | [] => true
  | (_, value) :: fields => uniqueKeys value && uniqueFields fields
end

/-- `json.loads` with a hook that refuses an object repeating a key. -/
def loads (raw : Text) : Option Json := (parse raw).filter uniqueKeys

/-- A field read by its alias, or by its own name, and the fields left to read. -/
def takeField (camel snake : Text) (fields : List (Text × Json)) :
    Option Json × List (Text × Json) :=
  match fields.find? (·.1 = camel) with
  | some field => (some field.2, fields.filter (·.1 ≠ camel))
  | none =>
    match fields.find? (·.1 = snake) with
    | some field => (some field.2, fields.filter (·.1 ≠ snake))
    | none => (none, fields)

def asString : Json → Option String
  | .string s => some (String.ofList s)
  | _ => none

/-- No number goes on into what follows it. -/
def Stops (rest : Text) : Prop :=
  ∀ c, rest.head? = some c → c.isDigit = false ∧ c ≠ '.' ∧ c ≠ 'e' ∧ c ≠ 'E'

/-- The values a reading can give back: whole numbers within the limit, at every depth. -/
inductive Exact : Json → Prop where
  | null : Exact .null
  | bool (b : Bool) : Exact (.bool b)
  | int (n : Int) (short : (Nat.toDigits 10 n.natAbs).length ≤ intMaxStrDigits) : Exact (.int n)
  | string (s : Text) : Exact (.string s)
  | array (items : List Json) (each : ∀ item ∈ items, Exact item) : Exact (.array items)
  | object (fields : List (Text × Json)) (each : ∀ field ∈ fields, Exact field.2) :
      Exact (.object fields)

theorem stopsNewline (indent : Nat) (rest : Text) : Stops (newline indent ++ rest) := by
  intro c head
  simp only [newline, List.cons_append, List.head?_cons, Option.some.injEq] at head
  subst head
  decide

theorem stopsComma (rest : Text) : Stops (',' :: rest) := by
  intro c head
  simp only [List.head?_cons, Option.some.injEq] at head
  subst head
  decide

theorem skipSpaceNewline (indent : Nat) (raw : Text) :
    skipSpace (newline indent ++ raw) = skipSpace raw := by
  have spaces : ∀ n, (List.replicate n ' ' ++ raw).dropWhile jsonSpace = raw.dropWhile jsonSpace := by
    intro n
    induction n with
    | zero => rfl
    | succ n ih => simpa [List.replicate_succ, jsonSpace] using ih
  simpa [skipSpace, newline, jsonSpace] using spaces indent

theorem skipSpaceSolid {c : Char} {rest : Text} (solid : jsonSpace c = false) :
    skipSpace (c :: rest) = c :: rest := by
  simp [skipSpace, solid]

/-- A printable character stands for itself, but for the quote and the backslash. -/
theorem escapeCharPlain {c : Char} (printable : 0x20 ≤ c.toNat) (notQuote : c ≠ '"')
    (notSlash : c ≠ '\\') : escapeChar c = [c] := by
  have other : ∀ d : Char, d.toNat < 0x20 → c ≠ d := by
    intro d low same
    subst same
    omega
  simp only [escapeChar, notQuote, notSlash, other '\x08' (by decide), other '\x0c' (by decide),
    other '\n' (by decide), other '\r' (by decide), other '\t' (by decide), if_false]
  rw [if_neg (by omega)]

def escapeAlphabet : List Char :=
  ['\\', '"', 'b', 'f', 'n', 'r', 't', 'u', '0', '1', '2', '3', '4', '5', '6', '7', '8', '9',
    'a', 'c', 'd', 'e']

/-- An escape is the character itself, which is printable, or letters of its own. -/
theorem escapeCharLetters {c d : Char} (member : d ∈ escapeChar c) :
    d = c ∧ 0x20 ≤ c.toNat ∨ d ∈ escapeAlphabet := by
  have digits : ∀ n < 16, Nat.digitChar n ∈ escapeAlphabet := by decide
  have named : ∀ e ∈ escapeAlphabet, d ∈ ['\\', e] → d ∈ escapeAlphabet := by
    intro e inside found
    rcases List.mem_cons.mp found with rfl | rest
    · decide
    · rw [List.mem_singleton.mp rest]; exact inside
  unfold escapeChar at member
  split at member
  · exact Or.inr (named '"' (by decide) member)
  split at member
  · exact Or.inr (named '\\' (by decide) member)
  split at member
  · exact Or.inr (named 'b' (by decide) member)
  split at member
  · exact Or.inr (named 'f' (by decide) member)
  split at member
  · exact Or.inr (named 'n' (by decide) member)
  split at member
  · exact Or.inr (named 'r' (by decide) member)
  split at member
  · exact Or.inr (named 't' (by decide) member)
  split at member
  · next control =>
    right
    simp only [List.mem_cons, List.not_mem_nil, or_false] at member
    rcases member with rfl | rfl | rfl | rfl | rfl | rfl
    · decide
    · decide
    · decide
    · decide
    · exact digits _ (by omega)
    · exact digits _ (by omega)
  · next printable => exact Or.inl ⟨List.mem_singleton.mp member, by omega⟩

theorem hex4Control : ∀ n < 32,
    hex4 '0' '0' (Nat.digitChar (n / 16)) (Nat.digitChar (n % 16)) = some n := by decide

theorem readCharsNamed {e c : Char} (named : unescape e = some c) (plain : e ≠ 'u') (rest : Text) :
    readChars ('\\' :: e :: rest) = (readChars rest).map fun (s, rest) => (c :: s, rest) := by
  rw [readChars.eq_def]
  simp [named, plain]

theorem readCharsEscape (c : Char) (rest : Text) :
    readChars (escapeChar c ++ rest) = (readChars rest).map fun (s, rest) => (c :: s, rest) := by
  unfold escapeChar
  split
  · next same => rw [same]; exact readCharsNamed rfl (by decide) rest
  split
  · next same => rw [same]; exact readCharsNamed rfl (by decide) rest
  split
  · next same => rw [same]; exact readCharsNamed rfl (by decide) rest
  split
  · next same => rw [same]; exact readCharsNamed rfl (by decide) rest
  split
  · next same => rw [same]; exact readCharsNamed rfl (by decide) rest
  split
  · next same => rw [same]; exact readCharsNamed rfl (by decide) rest
  split
  · next same => rw [same]; exact readCharsNamed rfl (by decide) rest
  split
  · next control =>
    have code := hex4Control c.toNat control
    have low : ¬(0xd800 ≤ c.toNat) ∧ ¬(0xdc00 ≤ c.toNat) := by omega
    rw [readChars.eq_def]
    simp [code, low]
  · next plain slash _ _ _ _ _ printable =>
    rw [List.singleton_append, readChars.eq_def]
    simp [plain, slash, printable]

theorem readCharsQuoted (s rest : Text) :
    readChars (s.flatMap escapeChar ++ '"' :: rest) = some (s, rest) := by
  induction s with
  | nil => rw [List.flatMap_nil, List.nil_append, readChars.eq_def]; rfl
  | cons c s ih => rw [List.flatMap_cons, List.append_assoc, readCharsEscape, ih]; rfl

theorem digitOfToDigits {n : Nat} {c : Char} (member : c ∈ Nat.toDigits 10 n) : c.isDigit = true :=
  Nat.isDigit_of_mem_toDigits (by decide) (by decide) member

theorem toDigitsHead (n : Nat) :
    Nat.toDigits 10 n = ['0'] ∨ ∃ c rest, Nat.toDigits 10 n = c :: rest ∧ c ≠ '0' := by
  induction n using Nat.strong_induction_on with
  | h n ih =>
    rcases Nat.lt_or_ge n 10 with small | large
    · rw [Nat.toDigits_of_lt_base small]
      rcases Nat.eq_zero_or_pos n with zero | positive
      · exact Or.inl (by rw [zero]; rfl)
      · have digits : ∀ m < 10, 0 < m → Nat.digitChar m ≠ '0' := by decide
        exact Or.inr ⟨_, [], rfl, digits n small positive⟩
    · rw [Nat.toDigits_of_base_le (by decide) large]
      have smaller : n / 10 < n := Nat.div_lt_self (by omega) (by decide)
      rcases ih (n / 10) smaller with zero | ⟨c, rest, same, nonzero⟩
      · have back := Nat.ofDigitChars_ten_toDigits (n := n / 10)
        rw [zero] at back
        have : n / 10 = 0 := back.symm
        omega
      · exact Or.inr ⟨c, rest ++ [(n % 10).digitChar], by rw [same]; rfl, nonzero⟩

theorem wholeDigitsRendered (n : Nat) {rest : Text} (stops : Stops rest) :
    wholeDigits (Nat.toDigits 10 n ++ rest) = Nat.toDigits 10 n := by
  have digits : ∀ c ∈ Nat.toDigits 10 n, c.isDigit = true := fun c member => digitOfToDigits member
  have after : rest.takeWhile Char.isDigit = [] := by
    cases rest with
    | nil => rfl
    | cons c rest => simp [(stops c rfl).1]
  rcases toDigitsHead n with zero | ⟨c, tail, same, nonzero⟩
  · rw [zero]; rfl
  · rw [same] at digits ⊢
    unfold wholeDigits
    split
    · next head => cases head; exact absurd rfl nonzero
    · rw [List.takeWhile_append_of_pos digits, after, List.append_nil]

theorem fractionStops {rest : Text} (stops : Stops rest) : fraction rest = [] := by
  unfold fraction
  split
  · exact absurd rfl (stops '.' rfl).2.1
  · rfl

theorem exponentStops {rest : Text} (stops : Stops rest) : exponent rest = [] := by
  unfold exponent
  split
  · rfl
  · next e rest =>
    have notPower := (stops e rfl).2.2
    simp [notPower]

theorem readNumberRendered (n : Int) {rest : Text}
    (short : (Nat.toDigits 10 n.natAbs).length ≤ intMaxStrDigits) (stops : Stops rest) :
    readNumber (renderInt n ++ rest) = some (.int n, rest) := by
  have whole := wholeDigitsRendered n.natAbs stops
  have nonempty : Nat.toDigits 10 n.natAbs ≠ [] := Nat.toDigits_ne_nil
  have noSign : (Nat.toDigits 10 n.natAbs).head? ≠ some '-' := by
    intro head
    exact absurd (digitOfToDigits (List.mem_of_head? head)) (by decide)
  unfold readNumber renderInt
  split
  · next negative =>
    have value : (-(n.natAbs : Int)) = n := by omega
    simpa [whole, nonempty, fractionStops stops, exponentStops stops, Nat.not_lt.mpr short,
      Nat.add_comm 1] using value
  · next positive =>
    have value : (n.natAbs : Int) = n := by omega
    simpa [noSign, whole, nonempty, fractionStops stops, exponentStops stops, Nat.not_lt.mpr short]
      using value

theorem renderItemsMap (indent : Nat) (items : List Json) :
    renderItems indent items = items.map (render indent) := by
  induction items with
  | nil => rfl
  | cons item items ih => rw [renderItems, ih]; rfl

theorem renderFieldsMap (indent : Nat) (fields : List (Text × Json)) :
    renderFields indent fields =
      fields.map fun field => quoted field.1 ++ [':', ' '] ++ render indent field.2 := by
  induction fields with
  | nil => rfl
  | cons field fields ih => rw [renderFields, ih]; rfl

/-- What follows the first part of a container, from its second part to its closing. -/
def tailParts (closing : Char) (indent : Nat) (parts : List Text) (rest : Text) : Text :=
  (parts.flatMap fun next => ',' :: (newline (indent + 2) ++ next)) ++
    (newline indent ++ closing :: rest)

theorem bracketTail (opening closing : Char) (indent : Nat) (part : Text) (parts : List Text)
    (rest : Text) :
    bracket opening closing indent (part :: parts) ++ rest =
      opening :: (newline (indent + 2) ++ (part ++ tailParts closing indent parts rest)) := by
  simp [bracket, tailParts]

theorem tailPartsStops (closing : Char) (indent : Nat) (parts : List Text) (rest : Text) :
    Stops (tailParts closing indent parts rest) := by
  cases parts with
  | nil => exact stopsNewline indent (closing :: rest)
  | cons part parts => exact stopsComma _

theorem bracketLength (opening closing : Char) (indent : Nat) {parts : List Text} {part : Text}
    (member : part ∈ parts) : part.length < (bracket opening closing indent parts).length := by
  cases parts with
  | nil => simp at member
  | cons first parts =>
    rcases List.mem_cons.mp member with rfl | later
    · simp [bracket]; omega
    · have inside : part.length ≤
          (parts.flatMap fun next => ',' :: (newline (indent + 2) ++ next)).length := by
        obtain ⟨before, after, split⟩ := List.append_of_mem later
        rw [split]
        simp only [List.flatMap_append, List.flatMap_cons, List.length_append, List.length_cons]
        omega
      simp only [bracket, List.length_append, List.length_cons]
      omega

theorem readPartsRendered {α : Type} {part : Text → Option (α × Text)} {text : α → Text}
    {closing : Char} (solid : jsonSpace closing = false) (notComma : closing ≠ ',') {indent : Nat}
    (rest : Text) (x : α) (xs : List α) (bound : Nat) (enough : xs.length < bound)
    (reads : ∀ y ∈ x :: xs, ∀ after, Stops after →
      part (newline (indent + 2) ++ (text y ++ after)) = some (y, after)) :
    readParts part closing bound
        (newline (indent + 2) ++ (text x ++ tailParts closing indent (xs.map text) rest)) =
      some (x :: xs, rest) := by
  induction xs generalizing x bound with
  | nil =>
    obtain ⟨n, rfl⟩ : ∃ n, bound = n + 1 := ⟨bound - 1, by simp at enough; omega⟩
    have first := reads x (by simp) _ (tailPartsStops closing indent ([].map text) rest)
    simp only [readParts, first]
    simp only [tailParts, List.map_nil, List.flatMap_nil, List.nil_append, skipSpaceNewline,
      skipSpaceSolid solid, if_true]
  | cons y ys ih =>
    obtain ⟨n, rfl⟩ : ∃ n, bound = n + 1 := ⟨bound - 1, by simp at enough; omega⟩
    have first := reads x (by simp) _ (tailPartsStops closing indent ((y :: ys).map text) rest)
    have later := ih y n (by simpa using enough)
      (fun z member => reads z (List.mem_cons_of_mem x member))
    have comma : tailParts closing indent ((y :: ys).map text) rest =
        ',' :: (newline (indent + 2) ++ (text y ++ tailParts closing indent (ys.map text) rest)) := by
      simp [tailParts]
    simp only [readParts, first]
    rw [comma, skipSpaceSolid (by decide)]
    simp only [notComma.symm, if_false, if_true, later, Option.map_some]

theorem readContainerRendered {α : Type} (part : Text → Option (α × Text)) (text : α → Text)
    (opening : Char) {closing : Char} (solid : jsonSpace closing = false) (notComma : closing ≠ ',')
    (indent : Nat) (rest : Text) (xs : List α)
    (starts : ∀ y ∈ xs, ∃ c tail, text y = c :: tail ∧ jsonSpace c = false ∧ c ≠ closing)
    (reads : ∀ y ∈ xs, ∀ after, Stops after →
      part (newline (indent + 2) ++ (text y ++ after)) = some (y, after)) :
    ∃ raw, bracket opening closing indent (xs.map text) ++ rest = opening :: raw ∧
      readContainer part closing raw = some (xs, rest) := by
  cases xs with
  | nil => exact ⟨closing :: rest, rfl, by simp [readContainer, skipSpaceSolid solid]⟩
  | cons x xs =>
    refine ⟨_, bracketTail opening closing indent (text x) (xs.map text) rest, ?_⟩
    obtain ⟨c, tail, same, notSpace, notClosing⟩ := starts x (by simp)
    have enough : xs.length < (newline (indent + 2) ++
        (text x ++ tailParts closing indent (xs.map text) rest)).length := by
      have each : xs.length ≤ ((xs.map text).flatMap fun next =>
          ',' :: (newline (indent + 2) ++ next)).length := by
        clear starts reads
        induction xs with
        | nil => simp
        | cons y ys ih => simp only [List.map_cons, List.flatMap_cons, List.length_append,
            List.length_cons] at ih ⊢; omega
      simp only [tailParts, newline, List.length_append, List.length_cons] at each ⊢
      omega
    have all := readPartsRendered solid notComma rest x xs _ enough reads
    unfold readContainer
    rw [skipSpaceNewline, same, List.cons_append, skipSpaceSolid notSpace]
    rw [same, List.cons_append] at all
    simp only [notClosing, if_false, all]

/-- What a value's text may start with: no space, and nothing that closes a container. -/
def Opens (text : Text) : Prop :=
  ∃ c tail, text = c :: tail ∧ jsonSpace c = false ∧ c ≠ ']' ∧ c ≠ '\x7d'

theorem bracketOpens {opening closing : Char} (solid : jsonSpace opening = false)
    (notArray : opening ≠ ']') (notObject : opening ≠ '\x7d') (indent : Nat) (parts : List Text) :
    Opens (bracket opening closing indent parts) := by
  cases parts with
  | nil => exact ⟨opening, _, rfl, solid, notArray, notObject⟩
  | cons part parts => exact ⟨opening, _, rfl, solid, notArray, notObject⟩

theorem renderIntOpens (n : Int) : ∃ c tail, renderInt n = c :: tail ∧ (c = '-' ∨ c.isDigit) := by
  unfold renderInt
  split
  · exact ⟨'-', _, rfl, Or.inl rfl⟩
  · cases digits : Nat.toDigits 10 n.natAbs with
    | nil => exact absurd digits Nat.toDigits_ne_nil
    | cons c tail =>
      exact ⟨c, tail, rfl, Or.inr (digitOfToDigits (n := n.natAbs) (by simp [digits]))⟩

/-- No letter, quote or bracket is a minus sign or a digit. -/
theorem numeralDistinct {c d : Char} (numeral : c = '-' ∨ c.isDigit) (other : d ≠ '-')
    (notDigit : d.isDigit = false) : c ≠ d := by
  intro same
  subst same
  rcases numeral with sign | digit
  · exact other sign
  · rw [notDigit] at digit; cases digit

theorem numeralSolid {c : Char} (numeral : c = '-' ∨ c.isDigit) : jsonSpace c = false := by
  have each : c ≠ ' ' ∧ c ≠ '\t' ∧ c ≠ '\n' ∧ c ≠ '\r' :=
    ⟨numeralDistinct numeral (by decide) (by decide), numeralDistinct numeral (by decide) (by decide),
      numeralDistinct numeral (by decide) (by decide), numeralDistinct numeral (by decide) (by decide)⟩
  simp [jsonSpace, each]

theorem renderOpens {value : Json} (plain : Exact value) (indent : Nat) :
    Opens (render indent value) := by
  cases plain with
  | null => exact ⟨'n', _, rfl, by decide, by decide, by decide⟩
  | bool b => cases b <;> exact ⟨_, _, rfl, by decide, by decide, by decide⟩
  | int n =>
    obtain ⟨c, tail, same, numeral⟩ := renderIntOpens n
    exact ⟨c, tail, same, numeralSolid numeral, numeralDistinct numeral (by decide) (by decide),
      numeralDistinct numeral (by decide) (by decide)⟩
  | string s => exact ⟨'"', _, rfl, by decide, by decide, by decide⟩
  | array items => exact bracketOpens (by decide) (by decide) (by decide) indent _
  | object fields => exact bracketOpens (by decide) (by decide) (by decide) indent _

theorem readValueNewline (fuel indent : Nat) (raw : Text) :
    readValue fuel (newline indent ++ raw) = readValue fuel raw := by
  cases fuel with
  | zero => rfl
  | succ fuel => rw [readValue, readValue, skipSpaceNewline]

theorem readFieldRendered {value : Text → Option (Json × Text)} (key : Text) (v : Json)
    (indent deep : Nat) (after : Text)
    (reads : value (' ' :: (render deep v ++ after)) = some (v, after)) :
    readField value (newline indent ++ ((quoted key ++ [':', ' '] ++ render deep v) ++ after)) =
      some ((key, v), after) := by
  have name : readString (quoted key ++ ([':', ' '] ++ render deep v ++ after)) =
      some (key, [':', ' '] ++ render deep v ++ after) := by
    simpa [quoted, readString] using readCharsQuoted key ([':', ' '] ++ render deep v ++ after)
  have start : skipSpace (newline indent ++ ((quoted key ++ [':', ' '] ++ render deep v) ++ after)) =
      quoted key ++ ([':', ' '] ++ render deep v ++ after) := by
    rw [skipSpaceNewline]
    simp [quoted, skipSpaceSolid (show jsonSpace '"' = false by decide)]
  unfold readField
  rw [start, name]
  simp [skipSpaceSolid (show jsonSpace ':' = false by decide), reads]

theorem readValueSpace (fuel : Nat) (raw : Text) :
    readValue fuel (' ' :: raw) = readValue fuel raw := by
  cases fuel with
  | zero => rfl
  | succ fuel => rw [readValue, readValue]; rfl

theorem readRendered {value : Json} (plain : Exact value) (fuel indent : Nat) (rest : Text)
    (enough : (render indent value).length < fuel) (stops : Stops rest) :
    readValue fuel (render indent value ++ rest) = some (value, rest) := by
  obtain ⟨fuel, rfl⟩ : ∃ n, fuel = n + 1 := ⟨fuel - 1, by omega⟩
  induction plain generalizing fuel indent rest with
  | null => simp [render, readValue, skipSpace, jsonSpace, readLiteral]
  | bool b => cases b <;> simp [render, readValue, skipSpace, jsonSpace, readLiteral]
  | int n short =>
    obtain ⟨c, tail, same, numeral⟩ := renderIntOpens n
    have reads := readNumberRendered n short stops
    rw [same, List.cons_append] at reads
    have other : ∀ d : Char, d ≠ '-' → d.isDigit = false → c ≠ d :=
      fun d => numeralDistinct numeral
    simp only [render, same, List.cons_append, readValue, skipSpaceSolid (numeralSolid numeral)]
    simp only [other '"' (by decide) (by decide), other '[' (by decide) (by decide),
      other '\x7b' (by decide) (by decide), other 'n' (by decide) (by decide),
      other 't' (by decide) (by decide), other 'f' (by decide) (by decide), if_false, reads]
  | string s =>
    simp only [render, quoted, List.cons_append, List.append_assoc, readValue]
    rw [skipSpaceSolid (by decide)]
    simp [readCharsQuoted]
  | array items each ih =>
    obtain ⟨raw, same, reads⟩ := readContainerRendered (readValue fuel)
      (render (indent + 2)) '['
      (show jsonSpace ']' = false by decide) (by decide) indent rest items
      (fun item member => by
        obtain ⟨c, tail, text, solid, notClosing, _⟩ := renderOpens (each item member) (indent + 2)
        exact ⟨c, tail, text, solid, notClosing⟩)
      (fun item member after stops => by
        have inside := bracketLength '[' ']' indent
          (List.mem_map_of_mem (f := render (indent + 2)) member)
        simp only [render, renderItemsMap] at enough
        obtain ⟨less, rfl⟩ : ∃ n, fuel = n + 1 := ⟨fuel - 1, by omega⟩
        rw [readValueNewline]
        exact ih item member (indent + 2) after stops less (by omega))
    simp only [render, renderItemsMap, same, readValue]
    rw [skipSpaceSolid (by decide)]
    simp [reads]
  | object fields each ih =>
    obtain ⟨raw, same, reads⟩ := readContainerRendered (readField (readValue fuel))
      (fun field => quoted field.1 ++ [':', ' '] ++ render (indent + 2) field.2) '\x7b'
      (show jsonSpace '\x7d' = false by decide) (by decide) indent rest fields
      (fun field _ => ⟨'"', _, rfl, by decide, by decide⟩)
      (fun field member after stops => by
        have inside := bracketLength '\x7b' '\x7d' indent
          (List.mem_map_of_mem
            (f := fun field => quoted field.1 ++ [':', ' '] ++ render (indent + 2) field.2) member)
        simp only [render, renderFieldsMap] at enough
        simp only [List.length_append] at inside
        obtain ⟨less, rfl⟩ : ∃ n, fuel = n + 1 := ⟨fuel - 1, by omega⟩
        refine readFieldRendered field.1 field.2 (indent + 2) (indent + 2) after ?_
        rw [readValueSpace]
        exact ih field member (indent + 2) after stops less (by omega))
    simp only [render, renderFieldsMap, same, readValue]
    rw [skipSpaceSolid (by decide)]
    simp [reads]

theorem parseRendered {value : Json} (plain : Exact value) : parse (render 0 value) = some value := by
  have reads := readRendered plain ((render 0 value).length + 1) 0 [] (by omega)
    (by intro c head; cases head)
  rw [List.append_nil] at reads
  simp [parse, reads, skipSpace]

theorem loadsRendered {value : Json} (plain : Exact value) (unique : uniqueKeys value) :
    loads (render 0 value) = some value := by
  simp [loads, parseRendered plain, unique]

end JsonText
end Kodezart
