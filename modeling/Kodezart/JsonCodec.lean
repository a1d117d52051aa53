import Kodezart.Dict
import Kodezart.JsonLimits

/-! Codecs between values and JSON: a record's fields under an alias or their own name, tagged
unions, and which values read back from what is written of them. -/
namespace Kodezart.JsonCodec
open JsonText

/-- The names a dump writes fields under: their aliases, or their own. -/
inductive Spelling where
  | byAlias | byName
  deriving DecidableEq, Repr

def Spelling.pick : Spelling → Text → Text → Text
  | .byAlias, camel, _ => camel
  | .byName, _, snake => snake

structure Codec (α : Type) where
  encode : Spelling → α → Json
  decode : Json → Option α

/-- Whichever way a value is spelled, it reads back. -/
structure Codec.Keeps {α : Type} (codec : Codec α) (ok : Int → Prop) (a : α) : Prop where
  reads : ∀ spelling, codec.decode (codec.encode spelling a) = some a
  fits : ∀ spelling, Fits ok (codec.encode spelling a)

theorem Codec.Keeps.mono {α : Type} {codec : Codec α} {ok more : Int → Prop} {a : α} (keeps : codec.Keeps ok a)
    (weaker : ∀ n, ok n → more n) : codec.Keeps more a :=
  ⟨keeps.reads, fun spelling => (keeps.fits spelling).mono weaker⟩

/-- No value is written as null. -/
def Codec.Solid {α : Type} (codec : Codec α) : Prop := ∀ spelling a, codec.encode spelling a ≠ .null

theorem Codec.Keeps.injective {α : Type} {ok : Int → Prop} {codec : Codec α} {a b : α} (keeps : codec.Keeps ok a) (keeps' : codec.Keeps ok b)
    (spelling : Spelling) (same : codec.encode spelling a = codec.encode spelling b) : a = b := by
  have read := keeps.reads spelling
  rw [same, keeps'.reads] at read
  exact (Option.some.inj read).symm

section Values
variable {α : Type} {ok : Int → Prop}

def text : Codec Text where
  encode _ s := .string s
  decode
    | .string s => some s
    | _ => none

def string : Codec String where
  encode _ s := .string s.toList
  decode := asString

def count : Codec Nat where
  encode _ n := .int n
  decode
    | .int n => if 0 ≤ n then some n.toNat else none
    | _ => none

def flag : Codec Bool where
  encode _ b := .bool b
  decode
    | .bool b => some b
    | _ => none

/-- A value of an enumeration, by its name. -/
def named (values : List α) (name : α → Text) : Codec α where
  encode _ a := .string (name a)
  decode
    | .string s => values.find? fun a => name a = s
    | _ => none

def checked (p : α → Prop) [DecidablePred p] (codec : Codec α) : Codec {a // p a} where
  encode spelling a := codec.encode spelling a.val
  decode json := (codec.decode json).bind fun a => if fits : p a then some ⟨a, fits⟩ else none

def list (codec : Codec α) : Codec (List α) where
  encode spelling items := .array (items.map (codec.encode spelling))
  decode
    | .array items => items.mapM codec.decode
    | _ => none

/-- The value of an optional field: null, or a value that is not. -/
def Codec.optional (codec : Codec α) : Codec (Option α) where
  encode spelling a := match a with
    | none => .null
    | some a => codec.encode spelling a
  decode
    | .null => some none
    | json => (codec.decode json).map some

theorem textKeeps (s : Text) : text.Keeps ok s := ⟨fun _ => rfl, fun _ => .string s⟩

theorem stringKeeps (s : String) : string.Keeps ok s :=
  ⟨fun _ => by simp [string, asString], fun _ => .string _⟩

theorem flagKeeps (b : Bool) : flag.Keeps ok b := ⟨fun _ => rfl, fun _ => .bool b⟩

theorem countKeeps {n : Nat} (fits : ok n) : count.Keeps ok n :=
  ⟨fun _ => by simp [count], fun _ => .int n fits⟩

theorem namedKeeps {values : List α} {name : α → Text} {a : α} (member : a ∈ values) (once : (values.map name).Nodup) :
    (named values name).Keeps ok a := by
  refine ⟨fun _ => ?_, fun _ => .string _⟩
  change values.find? (fun b => decide (name b = name a)) = some a
  cases found : values.find? fun b => decide (name b = name a) with
  | none => exact absurd (List.find?_eq_none.mp found a member) (by simp)
  | some b =>
    have same : name b = name a := by simpa using List.find?_some found
    rw [List.inj_on_of_nodup_map once (List.mem_of_find?_eq_some found) member same]

theorem checkedKeeps {p : α → Prop} [DecidablePred p] {codec : Codec α} {a : {a // p a}} (keeps : codec.Keeps ok a.val) :
    (checked p codec).Keeps ok a := by
  refine ⟨fun spelling => ?_, fun spelling => keeps.fits spelling⟩
  simp [checked, keeps.reads, a.property]

theorem listKeeps {codec : Codec α} {items : List α} (each : ∀ a ∈ items, codec.Keeps ok a) : (list codec).Keeps ok items := by
  refine ⟨fun spelling => ?_, fun spelling => .array _ ?_⟩
  · change (items.map (codec.encode spelling)).mapM codec.decode = some items
    induction items with
    | nil => rfl
    | cons a items ih =>
      have later := ih fun b member => each b (List.mem_cons_of_mem a member)
      simp [(each a (by simp)).reads, later]
  · intro json member
    obtain ⟨a, inside, rfl⟩ := List.mem_map.mp member
    exact (each a inside).fits spelling

theorem optionalKeeps {codec : Codec α} (solid : codec.Solid) {value : Option α}
    (keeps : ∀ a, value = some a → codec.Keeps ok a) : codec.optional.Keeps ok value := by
  cases value with
  | none => exact ⟨fun _ => rfl, fun _ => .null⟩
  | some a =>
    have own := keeps a rfl
    refine ⟨fun spelling => ?_, fun spelling => own.fits spelling⟩
    have visible := solid spelling a
    have reads := own.reads spelling
    simp only [Codec.optional]
    cases written : codec.encode spelling a with
    | null => exact absurd written visible
    | _ => simp [← written, reads]

end Values

/-! A record's fields in the order they are written. -/

/-- Fields by the names they may be read under: they are taken out of what is left to read. -/
structure Fields (σ : Type) where
  names : List Text
  write : Spelling → σ → List (Text × Json)
  read : List (Text × Json) → Option (σ × List (Text × Json))

structure Fields.Keeps {σ : Type} (fields : Fields σ) (ok : Int → Prop) (a : σ) : Prop where
  reads : ∀ spelling rest, (∀ e ∈ rest, e.1 ∉ fields.names) →
    fields.read (fields.write spelling a ++ rest) = some (a, rest)
  fits : ∀ spelling, ∀ e ∈ fields.write spelling a, Fits ok e.2
  own : ∀ spelling, ∀ e ∈ fields.write spelling a, e.1 ∈ fields.names
  distinct : ∀ spelling, (Dict.keys (fields.write spelling a)).Nodup

section Records
variable {σ τ : Type} {ok : Int → Prop}

def field (camel snake : Text) (codec : Codec σ) : Fields σ where
  names := [camel, snake]
  write spelling a := [(spelling.pick camel snake, codec.encode spelling a)]
  read fields := match takeField camel snake fields with
    | (some json, rest) => (codec.decode json).map fun a => (a, rest)
    | (none, _) => none

/-- A field with a default, which may be left out. -/
def fieldOr (camel snake : Text) (codec : Codec σ) (default : σ) : Fields σ where
  names := [camel, snake]
  write spelling a := [(spelling.pick camel snake, codec.encode spelling a)]
  read fields := match takeField camel snake fields with
    | (some json, rest) => (codec.decode json).map fun a => (a, rest)
    | (none, rest) => some (default, rest)

def Fields.and (fields : Fields σ) (more : Fields τ) : Fields (σ × τ) where
  names := fields.names ++ more.names
  write spelling a := fields.write spelling a.1 ++ more.write spelling a.2
  read entries := do
    let (a, rest) ← fields.read entries
    let (b, rest) ← more.read rest
    some ((a, b), rest)

/-- The fields of a value that is made of its parts, or refused. -/
def Fields.build (fields : Fields σ) (make : σ → Option τ) (parts : τ → σ) : Fields τ where
  names := fields.names
  write spelling a := fields.write spelling (parts a)
  read entries := do
    let (a, rest) ← fields.read entries
    (make a).map fun a => (a, rest)

/-- An object of exactly these fields. A name that is repeated reads as it does last. -/
def object (fields : Fields σ) : Codec σ where
  encode spelling a := .object (fields.write spelling a)
  decode
    | .object entries => match fields.read (Dict.update [] entries) with
      | some (a, []) => some a
      | _ => none
    | _ => none

theorem takeFieldOwn (spelling : Spelling) {camel snake : Text} (json : Json) {rest : List (Text × Json)}
    (others : ∀ e ∈ rest, e.1 ∉ [camel, snake]) :
    takeField camel snake ((spelling.pick camel snake, json) :: rest) = (some json, rest) := by
  have fresh : ∀ e ∈ rest, e.1 ≠ camel ∧ e.1 ≠ snake := by
    intro e member
    simpa using others e member
  have unseen : rest.find? (fun e => decide (e.1 = camel)) = none :=
    List.find?_eq_none.mpr fun e member => by simpa using (fresh e member).1
  cases spelling with
  | byAlias =>
    simp only [takeField, Spelling.pick, List.find?_cons, decide_true]
    simpa using fun a b member => (fresh (a, b) member).1
  | byName =>
    by_cases same : snake = camel
    · subst same
      simpa [takeField, Spelling.pick] using fun a b member => (fresh (a, b) member).1
    · simpa [takeField, Spelling.pick, same, unseen] using fun a b member => (fresh (a, b) member).2

theorem fieldKeeps {codec : Codec σ} {a : σ} (keeps : codec.Keeps ok a) (camel snake : Text) :
    (field camel snake codec).Keeps ok a := by
  refine ⟨fun spelling rest others => ?_, fun spelling e member => ?_, fun spelling e member => ?_, fun _ => ?_⟩
  · change (match takeField camel snake ((spelling.pick camel snake, codec.encode spelling a) :: rest) with
      | (some json, rest) => (codec.decode json).map fun a => (a, rest)
      | (none, _) => none) = _
    rw [takeFieldOwn spelling _ others]
    simp [keeps.reads]
  · rw [List.mem_singleton.mp member]
    exact keeps.fits spelling
  · rw [List.mem_singleton.mp member]
    cases spelling <;> simp [field, Spelling.pick]
  · exact List.nodup_singleton _

theorem fieldOrKeeps {codec : Codec σ} {a : σ} (keeps : codec.Keeps ok a) (camel snake : Text) (default : σ) :
    (fieldOr camel snake codec default).Keeps ok a := by
  refine ⟨fun spelling rest others => ?_, (fieldKeeps keeps camel snake).fits,
    (fieldKeeps keeps camel snake).own, (fieldKeeps keeps camel snake).distinct⟩
  change (match takeField camel snake ((spelling.pick camel snake, codec.encode spelling a) :: rest) with
    | (some json, rest) => (codec.decode json).map fun a => (a, rest)
    | (none, rest) => some (default, rest)) = _
  rw [takeFieldOwn spelling _ others]
  simp [keeps.reads]

theorem andKeeps {fields : Fields σ} {more : Fields τ} {a : σ × τ} (keeps : fields.Keeps ok a.1) (later : more.Keeps ok a.2)
    (apart : ∀ name ∈ more.names, name ∉ fields.names) : (fields.and more).Keeps ok a := by
  refine ⟨fun spelling rest others => ?_, fun spelling e member => ?_, fun spelling e member => ?_, fun spelling => ?_⟩
  · have behind : ∀ e ∈ more.write spelling a.2 ++ rest, e.1 ∉ fields.names := by
      intro e member
      rcases List.mem_append.mp member with own | after
      · exact apart e.1 (later.own spelling e own)
      · exact fun inside => others e after (List.mem_append_left _ inside)
    have beyond : ∀ e ∈ rest, e.1 ∉ more.names := fun e member inside =>
      others e member (List.mem_append_right _ inside)
    simp only [Fields.and, List.append_assoc, keeps.reads spelling _ behind, later.reads spelling _ beyond,
      Option.bind_eq_bind, Option.bind_some]
  · rcases List.mem_append.mp member with own | after
    · exact keeps.fits spelling e own
    · exact later.fits spelling e after
  · rcases List.mem_append.mp member with own | after
    · exact List.mem_append_left _ (keeps.own spelling e own)
    · exact List.mem_append_right _ (later.own spelling e after)
  · have split : Dict.keys ((fields.and more).write spelling a) =
        Dict.keys (fields.write spelling a.1) ++ Dict.keys (more.write spelling a.2) := List.map_append
    rw [split, List.nodup_append]
    refine ⟨keeps.distinct spelling, later.distinct spelling, ?_⟩
    intro name first other second same
    obtain ⟨e, inside, rfl⟩ := List.mem_map.mp first
    obtain ⟨e', inside', rfl⟩ := List.mem_map.mp second
    exact apart e'.1 (later.own spelling e' inside') (same ▸ keeps.own spelling e inside)

theorem buildKeeps {fields : Fields σ} {make : σ → Option τ} {parts : τ → σ} {a : τ} (keeps : fields.Keeps ok (parts a))
    (made : make (parts a) = some a) : (fields.build make parts).Keeps ok a := by
  refine ⟨fun spelling rest others => ?_, fun spelling => keeps.fits spelling, fun spelling => keeps.own spelling,
    fun spelling => keeps.distinct spelling⟩
  simp only [Fields.build, keeps.reads spelling rest others, Option.bind_eq_bind, Option.bind_some, made,
    Option.map_some]

theorem objectKeeps {fields : Fields σ} {a : σ} (keeps : fields.Keeps ok a) : (object fields).Keeps ok a := by
  refine ⟨fun spelling => ?_, fun spelling => .object _ (keeps.fits spelling)⟩
  have reads := keeps.reads spelling [] (by simp)
  rw [List.append_nil] at reads
  simp [object, Dict.updateSelf (keeps.distinct spelling), reads]

theorem fitsField {fields : Fields σ} {a : σ} {spelling : Spelling} (fits : Fits ok ((object fields).encode spelling a))
    {e : Text × Json} (member : e ∈ fields.write spelling a) : Fits ok e.2 := by
  cases fits with
  | object _ each => exact each e member

theorem fitsItem {codec : Codec σ} {items : List σ} {spelling : Spelling}
    (fits : Fits ok ((list codec).encode spelling items)) {a : σ} (member : a ∈ items) :
    Fits ok (codec.encode spelling a) := by
  cases fits with
  | array _ each => exact each _ (List.mem_map_of_mem member)

theorem checkedSolid {p : σ → Prop} [DecidablePred p] {codec : Codec σ} (solid : codec.Solid) :
    (checked p codec).Solid := fun spelling a => solid spelling a.val

theorem stringSolid : string.Solid := by
  intro spelling s
  simp [string]

theorem objectSolid (fields : Fields σ) : (object fields).Solid := by
  intro spelling a
  simp [object]

end Records

/-! Tagged unions: a variant by the name that one field declares. -/

section Unions
variable {ok : Int → Prop}

/-- A field that holds this one text. -/
def literal (name : String) : Codec Unit where
  encode _ _ := .string name.toList
  decode
    | .string s => if s = name.toList then some () else none
    | _ => none

theorem literalKeeps (name : String) : (literal name).Keeps ok () :=
  ⟨fun _ => by simp [literal], fun _ => .string _⟩

/-- No fields at all. -/
def noFields : Fields Unit := ⟨[], fun _ _ => [], fun entries => some ((), entries)⟩

theorem noFieldsKeeps : noFields.Keeps ok () :=
  ⟨fun _ _ _ => rfl, by simp [noFields], by simp [noFields], by simp [noFields, Dict.keys]⟩

/-- The text an object holds in a field. -/
def declared (discriminator : Text) : Json → Option Text
  | .object entries => match (Dict.update [] entries).get? discriminator with
    | some (.string kind) => some kind
    | _ => none
  | _ => none

theorem declaredObject {σ : Type} {fields : Fields σ} {a : σ} (keeps : fields.Keeps ok a) (spelling : Spelling)
    {discriminator kind : Text} (member : (discriminator, Json.string kind) ∈ fields.write spelling a) :
    declared discriminator ((object fields).encode spelling a) = some kind := by
  simp only [object, declared, Dict.updateSelf (keeps.distinct spelling)]
  rw [Dict.getOfMember (keeps.distinct spelling) member]

structure Variant (α : Type) where
  kind : String
  payload : Type
  fields : Fields payload
  make : payload → α

def tagged {α : Type} (discriminator : Text) (variants : List (Variant α)) (json : Json) : Option α :=
  match declared discriminator json with
  | none => none
  | some kind => match variants.find? fun variant => variant.kind.toList = kind with
    | none => none
    | some variant => ((object variant.fields).decode json).map variant.make

/-- Variants that read alike make unions that read alike, however they write. -/
theorem taggedSame {α : Type} (discriminator : Text) {variants others : List (Variant α)}
    (same : List.Forall₂ (fun variant other => variant.kind = other.kind ∧ ∀ json,
      ((object variant.fields).decode json).map variant.make = ((object other.fields).decode json).map other.make)
      variants others) (json : Json) : tagged discriminator variants json = tagged discriminator others json := by
  rw [tagged, tagged]
  cases declared discriminator json with
  | none => rfl
  | some kind =>
    dsimp only
    induction same with
    | nil => rfl
    | @cons variant other _ _ both _ ih =>
      rw [List.find?_cons, List.find?_cons, both.1]
      cases decide (other.kind.toList = kind) with
      | true => exact both.2 json
      | false => exact ih

/-- A union by the variant each value is of. -/
def union {α : Type} (discriminator : Text) (variants : List (Variant α))
    (variantOf : α → (variant : Variant α) × variant.payload) : Codec α where
  encode spelling a := (object (variantOf a).1.fields).encode spelling (variantOf a).2
  decode := tagged discriminator variants

theorem variantFound {α : Type} {variants : List (Variant α)} (once : (variants.map Variant.kind).Nodup)
    {variant : Variant α} (member : variant ∈ variants) :
    variants.find? (fun other => other.kind.toList = variant.kind.toList) = some variant := by
  cases found : variants.find? fun other => decide (other.kind.toList = variant.kind.toList) with
  | none => exact absurd (List.find?_eq_none.mp found variant member) (by simp)
  | some other =>
    have same : other.kind = variant.kind := String.toList_inj.mp (by simpa using List.find?_some found)
    rw [List.inj_on_of_nodup_map once (List.mem_of_find?_eq_some found) member same]

theorem unionKeeps {α : Type} {discriminator : Text} {variants : List (Variant α)}
    {variantOf : α → (variant : Variant α) × variant.payload} {a : α} (once : (variants.map Variant.kind).Nodup)
    (member : (variantOf a).1 ∈ variants) (made : (variantOf a).1.make (variantOf a).2 = a)
    (keeps : (variantOf a).1.fields.Keeps ok (variantOf a).2)
    (tag : ∀ spelling, (discriminator, Json.string (variantOf a).1.kind.toList) ∈
      (variantOf a).1.fields.write spelling (variantOf a).2) : (union discriminator variants variantOf).Keeps ok a := by
  refine ⟨fun spelling => ?_, (objectKeeps keeps).fits⟩
  simp only [union, tagged, declaredObject keeps spelling (tag spelling), variantFound once member,
    (objectKeeps keeps).reads, Option.map_some, made]

end Unions

/-! A set has no order of its own: a process iterates it as its hashes fall. -/

structure Iteration (α : Type) [DecidableEq α] where
  run : Finset α → List α
  once : ∀ s, (run s).Nodup
  whole : ∀ s, (run s).toFinset = s

section Sets
variable {α : Type} [DecidableEq α] {ok : Int → Prop}

def unordered (order : Iteration α) (codec : Codec α) : Codec (Finset α) where
  encode spelling s := (list codec).encode spelling (order.run s)
  decode json := ((list codec).decode json).map List.toFinset

theorem setKeeps (order : Iteration α) {codec : Codec α} {s : Finset α} (each : ∀ a ∈ s, codec.Keeps ok a) :
    (unordered order codec).Keeps ok s := by
  have items : (list codec).Keeps ok (order.run s) := listKeeps fun a member => each a (by
    rw [← order.whole s]
    exact List.mem_toFinset.mpr member)
  refine ⟨fun spelling => ?_, fun spelling => items.fits spelling⟩
  simp [unordered, items.reads, order.whole]

/-- No order is seen in a set of one member at most. -/
theorem iterationSame (order other : Iteration α) {s : Finset α} (small : s.card ≤ 1) : order.run s = other.run s := by
  have alike : (order.run s).Perm (other.run s) :=
    List.perm_of_nodup_nodup_toFinset_eq (order.once s) (other.once s) (by rw [order.whole, other.whole])
  have size : (other.run s).length ≤ 1 := by
    rw [← List.toFinset_card_of_nodup (other.once s), other.whole]
    exact small
  match found : other.run s, size with
  | [], _ => rwa [found, List.perm_nil] at alike
  | [a], _ => rwa [found, List.perm_singleton] at alike

/-- The order of an enumeration's members. -/
def listed (values : List α) (once : values.Nodup) (every : ∀ a, a ∈ values) : Iteration α where
  run s := values.filter (· ∈ s)
  once s := once.filter _
  whole s := by
    ext a
    simp [every a]

/-- A total order's own. -/
def sortedBy (r : α → α → Prop) [DecidableRel r] [IsTrans α r] [Std.Antisymm r] [Std.Total r] : Iteration α where
  run s := Quot.liftOn s.val (List.insertionSort r) fun l m alike =>
    ((List.perm_insertionSort r l).trans (alike.trans (List.perm_insertionSort r m).symm)).eq_of_pairwise'
      (List.pairwise_insertionSort r l) (List.pairwise_insertionSort r m)
  once s := by
    obtain ⟨values, once⟩ := s
    induction values using Quot.inductionOn with
    | h l => exact (List.perm_insertionSort r l).nodup_iff.mpr once
  whole s := by
    obtain ⟨values, once⟩ := s
    induction values using Quot.inductionOn with
    | h l =>
      ext a
      exact List.mem_toFinset.trans (List.mem_insertionSort r)

end Sets

end Kodezart.JsonCodec
