import Kodezart.JsonText

/-! What the digit limit refuses: a value holding a longer number at any depth is not read. -/
namespace Kodezart.JsonText

/-- Values whose numbers are whole and fit, at every depth. -/
inductive Fits (ok : Int → Prop) : Json → Prop where
  | null : Fits ok .null
  | bool (b : Bool) : Fits ok (.bool b)
  | int (n : Int) (fits : ok n) : Fits ok (.int n)
  | string (s : Text) : Fits ok (.string s)
  | array (items : List Json) (each : ∀ item ∈ items, Fits ok item) : Fits ok (.array items)
  | object (fields : List (Text × Json)) (each : ∀ field ∈ fields, Fits ok field.2) : Fits ok (.object fields)

theorem Fits.mono {ok more : Int → Prop} (weaker : ∀ n, ok n → more n) {value : Json} (fits : Fits ok value) :
    Fits more value := by
  induction fits with
  | null => exact .null
  | bool b => exact .bool b
  | int n fits => exact .int n (weaker n fits)
  | string s => exact .string s
  | array items _ ih => exact .array items ih
  | object fields _ ih => exact .object fields ih

/-- A number within the digit limit. -/
def Short (n : Int) : Prop := (Nat.toDigits 10 n.natAbs).length ≤ intMaxStrDigits

instance (n : Int) : Decidable (Short n) := inferInstanceAs (Decidable (_ ≤ _))

theorem fitsExact {value : Json} : Fits Short value ↔ Exact value := by
  constructor
  · intro fits
    induction fits with
    | null => exact .null
    | bool b => exact .bool b
    | int n short => exact .int n short
    | string s => exact .string s
    | array items _ ih => exact .array items ih
    | object fields _ ih => exact .object fields ih
  · intro exact'
    induction exact' with
    | null => exact .null
    | bool b => exact .bool b
    | int n short => exact .int n short
    | string s => exact .string s
    | array items _ ih => exact .array items ih
    | object fields _ ih => exact .object fields ih

theorem readNumberLong (n : Int) {rest : Text} (long : intMaxStrDigits < (Nat.toDigits 10 n.natAbs).length)
    (stops : Stops rest) : readNumber (renderInt n ++ rest) = none := by
  have whole := wholeDigitsRendered n.natAbs stops
  have nonempty : Nat.toDigits 10 n.natAbs ≠ [] := Nat.toDigits_ne_nil
  have noSign : (Nat.toDigits 10 n.natAbs).head? ≠ some '-' := by
    intro head
    exact absurd (digitOfToDigits (List.mem_of_head? head)) (by decide)
  unfold readNumber renderInt
  split
  · simp [whole, nonempty, fractionStops stops, exponentStops stops, long, Nat.add_comm 1]
  · simp [noSign, whole, nonempty, fractionStops stops, exponentStops stops, long]

theorem wholeOpens {ok : Int → Prop} {value : Json} (whole : Fits ok value) (indent : Nat) : Opens (render indent value) := by
  cases whole with
  | null => exact ⟨'n', _, rfl, by decide, by decide, by decide⟩
  | bool b => cases b <;> exact ⟨_, _, rfl, by decide, by decide, by decide⟩
  | int n =>
    obtain ⟨c, tail, same, numeral⟩ := renderIntOpens n
    exact ⟨c, tail, same, numeralSolid numeral, numeralDistinct numeral (by decide) (by decide),
      numeralDistinct numeral (by decide) (by decide)⟩
  | string s => exact ⟨'"', _, rfl, by decide, by decide, by decide⟩
  | array items => exact bracketOpens (by decide) (by decide) (by decide) indent _
  | object fields => exact bracketOpens (by decide) (by decide) (by decide) indent _

section Parts
variable {α : Type} {part : Text → Option (α × Text)} {text : α → Text} {closing : Char}

/-- A part that does not read stops its container, whatever reads before it. -/
theorem readPartsUnread (notComma : closing ≠ ',') {indent : Nat} (rest : Text)
    (x : α) (xs : List α) (bound : Nat) (bad : ∃ y ∈ x :: xs, ∀ after, Stops after →
      part (newline (indent + 2) ++ (text y ++ after)) = none)
    (either : ∀ y ∈ x :: xs, (∀ after, Stops after → part (newline (indent + 2) ++ (text y ++ after)) = some (y, after)) ∨
      ∀ after, Stops after → part (newline (indent + 2) ++ (text y ++ after)) = none) :
    readParts part closing bound (newline (indent + 2) ++ (text x ++ tailParts closing indent (xs.map text) rest)) = none := by
  induction xs generalizing x bound with
  | nil =>
    obtain ⟨y, member, fails⟩ := bad
    obtain rfl := List.mem_singleton.mp member
    cases bound with
    | zero => rfl
    | succ n => rw [readParts, fails _ (tailPartsStops closing indent _ rest)]
  | cons z zs ih =>
    cases bound with
    | zero => rfl
    | succ n =>
      rcases either x (by simp) with reads | fails
      · have later : ∃ y ∈ z :: zs, ∀ after, Stops after → part (newline (indent + 2) ++ (text y ++ after)) = none := by
          obtain ⟨y, member, fails⟩ := bad
          rcases List.mem_cons.mp member with rfl | inside
          · have stops : Stops [] := by
              intro c head
              cases head
            have both := (reads [] stops).symm.trans (fails [] stops)
            cases both
          · exact ⟨y, inside, fails⟩
        have comma : tailParts closing indent ((z :: zs).map text) rest =
            ',' :: (newline (indent + 2) ++ (text z ++ tailParts closing indent (zs.map text) rest)) := by
          simp [tailParts]
        rw [readParts, reads _ (tailPartsStops closing indent _ rest), comma]
        simp only [skipSpaceSolid (show jsonSpace ',' = false by decide), notComma.symm, if_false, if_true,
          ih z n later (fun y member => either y (List.mem_cons_of_mem x member)), Option.map_none]
      · rw [readParts, fails _ (tailPartsStops closing indent _ rest)]

theorem readContainerUnread (opening : Char) (notComma : closing ≠ ',') (indent : Nat) (rest : Text) (xs : List α)
    (starts : ∀ y ∈ xs, ∃ c tail, text y = c :: tail ∧ jsonSpace c = false ∧ c ≠ closing)
    (bad : ∃ y ∈ xs, ∀ after, Stops after → part (newline (indent + 2) ++ (text y ++ after)) = none)
    (either : ∀ y ∈ xs, (∀ after, Stops after → part (newline (indent + 2) ++ (text y ++ after)) = some (y, after)) ∨
      ∀ after, Stops after → part (newline (indent + 2) ++ (text y ++ after)) = none) :
    ∃ raw, bracket opening closing indent (xs.map text) ++ rest = opening :: raw ∧ readContainer part closing raw = none := by
  cases xs with
  | nil =>
    obtain ⟨y, member, -⟩ := bad
    cases member
  | cons x xs =>
    refine ⟨_, bracketTail opening closing indent (text x) (xs.map text) rest, ?_⟩
    obtain ⟨c, tail, same, notSpace, notClosing⟩ := starts x (by simp)
    have none_read := fun bound => readPartsUnread notComma rest x xs bound bad either
    unfold readContainer
    rw [skipSpaceNewline, same, List.cons_append, skipSpaceSolid notSpace]
    rw [same, List.cons_append] at none_read
    simp only [notClosing, if_false, none_read]

end Parts

theorem readFieldUnread {value : Text → Option (Json × Text)} (key : Text) (v : Json) (indent deep : Nat) (after : Text)
    (fails : value (' ' :: (render deep v ++ after)) = none) :
    readField value (newline indent ++ ((quoted key ++ [':', ' '] ++ render deep v) ++ after)) = none := by
  have name : readString (quoted key ++ ([':', ' '] ++ render deep v ++ after)) =
      some (key, [':', ' '] ++ render deep v ++ after) := by
    simpa [quoted, readString] using readCharsQuoted key ([':', ' '] ++ render deep v ++ after)
  have start : skipSpace (newline indent ++ ((quoted key ++ [':', ' '] ++ render deep v) ++ after)) =
      quoted key ++ ([':', ' '] ++ render deep v ++ after) := by
    rw [skipSpaceNewline]
    simp [quoted, skipSpaceSolid (show jsonSpace '"' = false by decide)]
  unfold readField
  rw [start, name]
  simp [skipSpaceSolid (show jsonSpace ':' = false by decide), fails]

theorem readUnread {ok : Int → Prop} {value : Json} (whole : Fits ok value) (long : ¬ Exact value) (fuel indent : Nat) (rest : Text)
    (enough : (render indent value).length < fuel) (stops : Stops rest) :
    readValue fuel (render indent value ++ rest) = none := by
  obtain ⟨fuel, rfl⟩ : ∃ n, fuel = n + 1 := ⟨fuel - 1, by omega⟩
  induction whole generalizing fuel indent rest with
  | null => exact absurd .null long
  | bool b => exact absurd (.bool b) long
  | string s => exact absurd (.string s) long
  | int n =>
    have digits : intMaxStrDigits < (Nat.toDigits 10 n.natAbs).length := by
      by_contra short
      exact long (.int n (Nat.not_lt.mp short))
    obtain ⟨c, tail, same, numeral⟩ := renderIntOpens n
    have reads := readNumberLong n digits stops
    rw [same, List.cons_append] at reads
    have other : ∀ d : Char, d ≠ '-' → d.isDigit = false → c ≠ d := fun d => numeralDistinct numeral
    simp only [render, same, List.cons_append, readValue, skipSpaceSolid (numeralSolid numeral)]
    simp only [other '"' (by decide) (by decide), other '[' (by decide) (by decide),
      other '\x7b' (by decide) (by decide), other 'n' (by decide) (by decide),
      other 't' (by decide) (by decide), other 'f' (by decide) (by decide), if_false, reads]
  | array items each ih =>
    have inside {item : Json} (member : item ∈ items) : (render (indent + 2) item).length < fuel := by
      have less := bracketLength '[' ']' indent (List.mem_map_of_mem (f := render (indent + 2)) member)
      simp only [render, renderItemsMap] at enough
      omega
    have fails : ∀ item ∈ items, ¬ Exact item → ∀ after, Stops after →
        readValue fuel (newline (indent + 2) ++ (render (indent + 2) item ++ after)) = none := by
      intro item member unread after stops
      have size := inside member
      obtain ⟨less, rfl⟩ : ∃ n, fuel = n + 1 := ⟨fuel - 1, by omega⟩
      rw [readValueNewline]
      exact ih item member unread (indent + 2) after stops less size
    have either : ∀ item ∈ items, (∀ after, Stops after → readValue fuel (newline (indent + 2) ++
        (render (indent + 2) item ++ after)) = some (item, after)) ∨ ∀ after, Stops after →
          readValue fuel (newline (indent + 2) ++ (render (indent + 2) item ++ after)) = none := by
      intro item member
      by_cases plain : Exact item
      · refine Or.inl fun after stops => ?_
        rw [readValueNewline]
        exact readRendered plain fuel (indent + 2) after (inside member) stops
      · exact Or.inr (fails item member plain)
    have bad : ∃ item ∈ items, ∀ after, Stops after →
        readValue fuel (newline (indent + 2) ++ (render (indent + 2) item ++ after)) = none := by
      by_contra all_read
      push Not at all_read
      refine long (.array items fun item member => ?_)
      by_contra unread
      obtain ⟨after, stops, reads⟩ := all_read item member
      exact reads (fails item member unread after stops)
    obtain ⟨raw, same, none_read⟩ := readContainerUnread '[' (show ']' ≠ ',' by decide) indent rest items
      (fun item member => by
        obtain ⟨c, tail, text, solid, notClosing, _⟩ := wholeOpens (each item member) (indent + 2)
        exact ⟨c, tail, text, solid, notClosing⟩) bad either
    simp only [render, renderItemsMap, same, readValue]
    rw [skipSpaceSolid (by decide)]
    simp [none_read]
  | object fields each ih =>
    have inside {entry : Text × Json} (member : entry ∈ fields) : (render (indent + 2) entry.2).length < fuel := by
      have less := bracketLength '\x7b' '\x7d' indent (List.mem_map_of_mem
        (f := fun field => quoted field.1 ++ [':', ' '] ++ render (indent + 2) field.2) member)
      simp only [render, renderFieldsMap] at enough
      simp only [List.length_append] at less
      omega
    have fails : ∀ entry ∈ fields, ¬ Exact entry.2 → ∀ after, Stops after → readField (readValue fuel)
        (newline (indent + 2) ++ ((quoted entry.1 ++ [':', ' '] ++ render (indent + 2) entry.2) ++ after)) = none := by
      intro entry member unread after stops
      have size := inside member
      obtain ⟨less, rfl⟩ : ∃ n, fuel = n + 1 := ⟨fuel - 1, by omega⟩
      refine readFieldUnread entry.1 entry.2 (indent + 2) (indent + 2) after ?_
      rw [readValueSpace]
      exact ih entry member unread (indent + 2) after stops less size
    have either : ∀ entry ∈ fields, (∀ after, Stops after → readField (readValue fuel)
        (newline (indent + 2) ++ ((quoted entry.1 ++ [':', ' '] ++ render (indent + 2) entry.2) ++ after)) =
          some (entry, after)) ∨ ∀ after, Stops after → readField (readValue fuel)
        (newline (indent + 2) ++ ((quoted entry.1 ++ [':', ' '] ++ render (indent + 2) entry.2) ++ after)) = none := by
      intro entry member
      by_cases plain : Exact entry.2
      · refine Or.inl fun after stops => ?_
        refine readFieldRendered entry.1 entry.2 (indent + 2) (indent + 2) after ?_
        rw [readValueSpace]
        exact readRendered plain fuel (indent + 2) after (inside member) stops
      · exact Or.inr (fails entry member plain)
    have bad : ∃ entry ∈ fields, ∀ after, Stops after → readField (readValue fuel)
        (newline (indent + 2) ++ ((quoted entry.1 ++ [':', ' '] ++ render (indent + 2) entry.2) ++ after)) = none := by
      by_contra all_read
      push Not at all_read
      refine long (.object fields fun entry member => ?_)
      by_contra unread
      obtain ⟨after, stops, reads⟩ := all_read entry member
      exact reads (fails entry member unread after stops)
    obtain ⟨raw, same, none_read⟩ := @readContainerUnread _ (readField (readValue fuel))
      (fun field => quoted field.1 ++ [':', ' '] ++ render (indent + 2) field.2) '\x7d' '\x7b' (by decide) indent rest fields
      (fun entry _ => ⟨'"', _, rfl, by decide, by decide⟩) bad either
    simp only [render, renderFieldsMap, same, readValue]
    rw [skipSpaceSolid (by decide)]
    simp [none_read]

/-- A value of whole numbers is read exactly when none of them is too long. -/
theorem parseWhole {ok : Int → Prop} {value : Json} (whole : Fits ok value) : Exact value ∨ parse (render 0 value) = none := by
  by_cases plain : Exact value
  · exact Or.inl plain
  · right
    have reads := readUnread whole plain ((render 0 value).length + 1) 0 [] (by omega) (fun c head => nomatch head)
    rw [List.append_nil] at reads
    simp [parse, reads]

end Kodezart.JsonText
