import Kodezart.JsonText

/-! JSON without space between its parts: two values that are written alike are one value. -/
namespace Kodezart.JsonText

def commas : List Text → Text
  | [] => []
  | part :: parts => part ++ parts.flatMap (',' :: ·)

mutual
def compact : Json → Text
  | .null => ['n', 'u', 'l', 'l']
  | .bool true => ['t', 'r', 'u', 'e']
  | .bool false => ['f', 'a', 'l', 's', 'e']
  | .int n => renderInt n
  | .float token => token
  | .string s => quoted s
  | .array items => '[' :: (commas (compactItems items) ++ [']'])
  | .object fields => '\x7b' :: (commas (compactFields fields) ++ ['\x7d'])

def compactItems : List Json → List Text
  | [] => []
  | item :: items => compact item :: compactItems items

def compactFields : List (Text × Json) → List Text
  | [] => []
  | (key, value) :: fields => (quoted key ++ ':' :: compact value) :: compactFields fields
end

def compactField (field : Text × Json) : Text := quoted field.1 ++ ':' :: compact field.2

theorem compactItemsMap (items : List Json) : compactItems items = items.map compact := by
  induction items with
  | nil => rfl
  | cons item items ih => rw [compactItems, ih]; rfl

theorem compactFieldsMap (fields : List (Text × Json)) : compactFields fields = fields.map compactField := by
  induction fields with
  | nil => rfl
  | cons field fields ih => rw [compactFields, ih]; rfl

/-- Which kind of value a text that starts so holds. -/
def opening (c : Char) : Nat :=
  if c = 'n' then 0 else if c = 't' || c = 'f' then 1 else if c = '"' then 2 else if c = '[' then 3
  else if c = '\x7b' then 4 else if c = '-' || c.isDigit then 5 else 6

def sort : Json → Nat
  | .null => 0
  | .bool _ => 1
  | .string _ => 2
  | .array _ => 3
  | .object _ => 4
  | .int _ => 5
  | .float _ => 6

theorem compactOpens {value : Json} (plain : Exact value) : ∃ c tail, compact value = c :: tail ∧ opening c = sort value := by
  cases plain with
  | null => exact ⟨'n', _, rfl, rfl⟩
  | bool b => cases b <;> exact ⟨_, _, rfl, rfl⟩
  | int n =>
    obtain ⟨c, tail, same, numeral⟩ := renderIntOpens n
    refine ⟨c, tail, same, ?_⟩
    have other : ∀ d : Char, d ≠ '-' → d.isDigit = false → c ≠ d := fun d => numeralDistinct numeral
    simp [opening, sort, other 'n' (by decide) (by decide), other 't' (by decide) (by decide),
      other 'f' (by decide) (by decide), other '"' (by decide) (by decide), other '[' (by decide) (by decide),
      other '\x7b' (by decide) (by decide), numeral]
  | string s => exact ⟨'"', _, rfl, rfl⟩
  | array items => exact ⟨'[', _, rfl, rfl⟩
  | object fields => exact ⟨'\x7b', _, rfl, rfl⟩

theorem quotedApart {s t rest more : Text} (same : quoted s ++ rest = quoted t ++ more) : s = t ∧ rest = more := by
  have read (s rest : Text) : readString (quoted s ++ rest) = some (s, rest) := by
    simpa [quoted, readString] using readCharsQuoted s rest
  have both := read s rest
  rw [same, read, Option.some.injEq, Prod.mk.injEq] at both
  exact ⟨both.1.symm, both.2.symm⟩

section Parts
variable {α : Type} {code : α → Text} {closing : Char}

/-- A part whose text tells where it ends. -/
def Ends (code : α → Text) (a b : α) : Prop :=
  ∀ rest more, Stops rest → Stops more → code a ++ rest = code b ++ more → a = b ∧ rest = more

theorem stopsTail (stops : Stops [closing]) (parts : List Text) (rest : Text) :
    Stops (parts.flatMap (',' :: ·) ++ closing :: rest) := by
  cases parts with
  | nil =>
    intro c head
    obtain rfl : closing = c := by simpa using head
    exact stops closing rfl
  | cons part parts => exact stopsComma _

theorem tailApart (notComma : closing ≠ ',') (stops : Stops [closing]) {parts others : List α}
    (ends : ∀ a ∈ parts, ∀ b ∈ others, Ends code a b) {rest more : Text}
    (same : (parts.map code).flatMap (',' :: ·) ++ closing :: rest = (others.map code).flatMap (',' :: ·) ++ closing :: more) :
    parts = others ∧ rest = more := by
  induction parts generalizing others with
  | nil =>
    cases others with
    | nil => exact ⟨rfl, (List.cons.inj same).2⟩
    | cons b others => exact absurd (List.cons.inj same).1 notComma
  | cons a parts ih =>
    cases others with
    | nil => exact absurd (List.cons.inj same).1.symm notComma
    | cons b others =>
      simp only [List.map_cons, List.flatMap_cons, List.cons_append, List.cons.injEq, true_and, List.append_assoc] at same
      obtain ⟨rfl, later⟩ := ends a (by simp) b (by simp) _ _ (stopsTail stops _ _) (stopsTail stops _ _) same
      obtain ⟨rfl, last⟩ := ih (fun a inside b member => ends a (by simp [inside]) b (by simp [member])) later
      exact ⟨rfl, last⟩

theorem commasApart (notComma : closing ≠ ',') (stops : Stops [closing]) {parts others : List α}
    (ends : ∀ a ∈ parts, ∀ b ∈ others, Ends code a b)
    (opens : ∀ a, a ∈ parts ∨ a ∈ others → (code a).head? ≠ some closing ∧ code a ≠ []) {rest more : Text}
    (same : commas (parts.map code) ++ closing :: rest = commas (others.map code) ++ closing :: more) :
    parts = others ∧ rest = more := by
  have started {a : α} {after rest : Text} (visible : (code a).head? ≠ some closing ∧ code a ≠ [])
      (same : code a ++ after = closing :: rest) : False := by
    obtain ⟨c, tail, text⟩ := List.exists_cons_of_ne_nil visible.2
    rw [text, List.cons_append] at same
    exact visible.1 (by rw [text, (List.cons.inj same).1]; rfl)
  cases parts with
  | nil =>
    cases others with
    | nil => exact ⟨rfl, (List.cons.inj same).2⟩
    | cons b others =>
      simp only [List.map_cons, commas, List.append_assoc] at same
      exact (started (opens b (by simp)) same.symm).elim
  | cons a parts =>
    cases others with
    | nil =>
      simp only [List.map_cons, commas, List.append_assoc] at same
      exact (started (opens a (by simp)) same).elim
    | cons b others =>
      simp only [List.map_cons, commas, List.append_assoc] at same
      obtain ⟨rfl, later⟩ := ends a (by simp) b (by simp) _ _ (stopsTail stops _ _) (stopsTail stops _ _) same
      obtain ⟨rfl, last⟩ := tailApart notComma stops
        (fun a inside b member => ends a (by simp [inside]) b (by simp [member])) later
      exact ⟨rfl, last⟩

end Parts

theorem compactFieldOpens (field : Text × Json) : (compactField field).head? ≠ some '\x7d' ∧ compactField field ≠ [] := by
  constructor <;> simp [compactField, quoted]

theorem compactSort {value other : Json} (plain : Exact value) (plain' : Exact other) {rest more : Text}
    (same : compact value ++ rest = compact other ++ more) : sort value = sort other := by
  obtain ⟨c, tail, text, kind⟩ := compactOpens plain
  obtain ⟨d, tail', text', kind'⟩ := compactOpens plain'
  rw [text, text', List.cons_append, List.cons_append] at same
  rw [← kind, ← kind', (List.cons.inj same).1]

theorem compactNotClosing {value : Json} (plain : Exact value) {closing : Char} (outside : opening closing = 6) :
    (compact value).head? ≠ some closing ∧ compact value ≠ [] := by
  obtain ⟨c, tail, text, kind⟩ := compactOpens plain
  rw [text]
  refine ⟨?_, by simp⟩
  intro same
  obtain rfl : c = closing := by simpa using same
  rw [outside] at kind
  cases plain <;> cases kind

theorem stopsArray : Stops [']'] := by
  intro c head
  obtain rfl : ']' = c := by simpa using head
  decide

theorem stopsObject : Stops ['\x7d'] := by
  intro c head
  obtain rfl : '\x7d' = c := by simpa using head
  decide

/-- The text of a value tells the value and where it ends. -/
theorem compactEnds {value other : Json} (plain : Exact value) (plain' : Exact other) : Ends compact value other := by
  induction plain generalizing other with
  | null =>
    intro rest more _ _ same
    have kinds := compactSort .null plain' same
    cases plain' with
    | null => exact ⟨rfl, List.append_cancel_left same⟩
    | _ => cases kinds
  | bool b =>
    intro rest more _ _ same
    have kinds := compactSort (.bool b) plain' same
    cases plain' with
    | bool b' =>
      cases b <;> cases b'
      · exact ⟨rfl, List.append_cancel_left same⟩
      · exact absurd (List.cons.inj same).1 (by decide)
      · exact absurd (List.cons.inj same).1 (by decide)
      · exact ⟨rfl, List.append_cancel_left same⟩
    | _ => cases kinds
  | int n short =>
    intro rest more stops stops' same
    have kinds := compactSort (.int n short) plain' same
    cases plain' with
    | int m short' =>
      have read := readNumberRendered n short stops
      simp only [compact] at same
      rw [same, readNumberRendered m short' stops', Option.some.injEq, Prod.mk.injEq] at read
      exact ⟨read.1.symm, read.2.symm⟩
    | _ => cases kinds
  | string s =>
    intro rest more _ _ same
    have kinds := compactSort (.string s) plain' same
    cases plain' with
    | string t =>
      obtain ⟨rfl, tails⟩ := quotedApart same
      exact ⟨rfl, tails⟩
    | _ => cases kinds
  | array items each ih =>
    intro rest more _ _ same
    have kinds := compactSort (.array items each) plain' same
    cases plain' with
    | array others each' =>
      simp only [compact, compactItemsMap, List.cons_append, List.append_assoc, List.cons.injEq, true_and,
        List.nil_append] at same
      have opens : ∀ a, a ∈ items ∨ a ∈ others → (compact a).head? ≠ some ']' ∧ compact a ≠ [] := fun a member =>
        compactNotClosing (member.elim (each a) (each' a)) rfl
      obtain ⟨rfl, tails⟩ := commasApart (by decide) stopsArray
        (fun a inside b member => ih a inside (each' b member)) opens same
      exact ⟨rfl, tails⟩
    | _ => cases kinds
  | object fields each ih =>
    intro rest more _ _ same
    have kinds := compactSort (.object fields each) plain' same
    cases plain' with
    | object others each' =>
      simp only [compact, compactFieldsMap, List.cons_append, List.append_assoc, List.cons.injEq, true_and,
        List.nil_append] at same
      have ends : ∀ a ∈ fields, ∀ b ∈ others, Ends compactField a b := by
        intro a inside b member rest more stops stops' same
        simp only [compactField, List.append_assoc, List.cons_append] at same
        obtain ⟨keys, values⟩ := quotedApart same
        obtain ⟨value, tails⟩ := ih a inside (each' b member) _ _ stops stops' (List.cons.inj values).2
        exact ⟨Prod.ext keys value, tails⟩
      obtain ⟨rfl, tails⟩ := commasApart (by decide) stopsObject ends (fun a _ => compactFieldOpens a) same
      exact ⟨rfl, tails⟩
    | _ => cases kinds

theorem compactInjective {value other : Json} (plain : Exact value) (plain' : Exact other)
    (same : compact value = compact other) : value = other := by
  have stops : Stops [] := fun c head => nomatch head
  exact (compactEnds plain plain' [] [] stops stops (by rw [List.append_nil, List.append_nil, same])).1

end Kodezart.JsonText
