import Kodezart.JsonCodec

/-! Fields left out when they hold nothing, and values none of whose objects repeats a name. -/
namespace Kodezart.JsonCodec
open JsonText

variable {σ τ : Type} {ok : Int → Prop}

/-- A field that is not written when it holds nothing. -/
def fieldIfAny (camel snake : Text) (codec : Codec σ) : Fields (Option σ) where
  names := [camel, snake]
  write spelling a := (a.map fun a => (spelling.pick camel snake, codec.encode spelling a)).toList
  read fields := match takeField camel snake fields with
    | (some json, rest) => (codec.optional.decode json).map fun a => (a, rest)
    | (none, rest) => some (none, rest)

theorem takeFieldNone {camel snake : Text} {rest : List (Text × Json)} (others : ∀ e ∈ rest, e.1 ∉ [camel, snake]) :
    takeField camel snake rest = (none, rest) := by
  have unseen : ∀ name ∈ [camel, snake], rest.find? (fun e => decide (e.1 = name)) = none := by
    intro name named
    apply List.find?_eq_none.mpr
    intro e member same
    exact others e member (by rwa [of_decide_eq_true same])
  simp only [takeField, unseen camel (by simp), unseen snake (by simp)]

theorem fieldIfAnyKeeps {codec : Codec σ} (solid : codec.Solid) {a : Option σ} (keeps : ∀ b, a = some b → codec.Keeps ok b)
    (camel snake : Text) : (fieldIfAny camel snake codec).Keeps ok a := by
  cases a with
  | none =>
    constructor
    · intro spelling rest others
      change (match takeField camel snake rest with
        | (some json, rest) => (codec.optional.decode json).map fun a => (a, rest)
        | (none, rest) => some (none, rest)) = _
      rw [takeFieldNone others]
    · simp [fieldIfAny]
    · simp [fieldIfAny]
    · simp [fieldIfAny, Dict.keys]
  | some b =>
    have own := fieldKeeps (keeps b rfl) camel snake
    constructor
    · intro spelling rest others
      change (match takeField camel snake ((spelling.pick camel snake, codec.optional.encode spelling (some b)) :: rest) with
        | (some json, rest) => (codec.optional.decode json).map fun a => (a, rest)
        | (none, rest) => some (none, rest)) = _
      rw [takeFieldOwn spelling _ others]
      simp only [(optionalKeeps solid keeps).reads, Option.map_some]
    · exact own.fits
    · exact own.own
    · exact own.distinct

theorem namedSolid (values : List σ) (name : σ → Text) : (named values name).Solid := by
  intro spelling a same
  cases same

/-! A text read with every name unique is written by a codec whose objects repeat none. -/

def Codec.Unique (codec : Codec σ) (a : σ) : Prop := ∀ spelling, uniqueKeys (codec.encode spelling a)

def Fields.Unique (fields : Fields σ) (a : σ) : Prop := ∀ spelling, ∀ e ∈ fields.write spelling a, uniqueKeys e.2

theorem uniqueItemsIff {items : List Json} : uniqueItems items ↔ ∀ json ∈ items, uniqueKeys json := by
  induction items with
  | nil => simp [uniqueItems]
  | cons json items ih => simp [uniqueItems, ih]

theorem uniqueFieldsIff {entries : List (Text × Json)} : uniqueFields entries ↔ ∀ e ∈ entries, uniqueKeys e.2 := by
  induction entries with
  | nil => simp [uniqueFields]
  | cons e entries ih => simp [uniqueFields, ih]

theorem stringUnique (s : String) : string.Unique s := fun _ => by simp [string, uniqueKeys]

theorem namedUnique (values : List σ) (name : σ → Text) (a : σ) : (named values name).Unique a :=
  fun _ => by simp [named, uniqueKeys]

theorem checkedUnique {p : σ → Prop} [DecidablePred p] {codec : Codec σ} {a : {a // p a}} (unique : codec.Unique a.val) :
    (checked p codec).Unique a := unique

theorem optionalUnique {codec : Codec σ} {a : Option σ} (unique : ∀ b, a = some b → codec.Unique b) :
    codec.optional.Unique a := by
  intro spelling
  cases a with
  | none => rfl
  | some b => exact unique b rfl spelling

theorem listUnique {codec : Codec σ} {items : List σ} (each : ∀ a ∈ items, codec.Unique a) : (list codec).Unique items := by
  intro spelling
  have members : ∀ json ∈ items.map (codec.encode spelling), uniqueKeys json := by
    intro json member
    obtain ⟨a, inside, rfl⟩ := List.mem_map.mp member
    exact each a inside spelling
  simpa only [list, uniqueKeys] using uniqueItemsIff.mpr members

theorem fieldUnique {codec : Codec σ} {a : σ} (unique : codec.Unique a) (camel snake : Text) :
    (field camel snake codec).Unique a := by
  intro spelling e member
  rw [List.mem_singleton.mp member]
  exact unique spelling

theorem fieldOrUnique {codec : Codec σ} {a : σ} (unique : codec.Unique a) (camel snake : Text) (default : σ) :
    (fieldOr camel snake codec default).Unique a := fieldUnique unique camel snake

theorem fieldIfAnyUnique {codec : Codec σ} {a : Option σ} (unique : ∀ b, a = some b → codec.Unique b) (camel snake : Text) :
    (fieldIfAny camel snake codec).Unique a := by
  intro spelling e member
  cases a with
  | none => cases member
  | some b =>
    rw [List.mem_singleton.mp member]
    exact unique b rfl spelling

theorem andUnique {fields : Fields σ} {more : Fields τ} {a : σ × τ} (unique : fields.Unique a.1) (later : more.Unique a.2) :
    (fields.and more).Unique a := by
  intro spelling e member
  rcases List.mem_append.mp member with own | after
  · exact unique spelling e own
  · exact later spelling e after

theorem buildUnique {fields : Fields σ} {make : σ → Option τ} {parts : τ → σ} {a : τ} (unique : fields.Unique (parts a)) :
    (fields.build make parts).Unique a := unique

theorem objectUnique {fields : Fields σ} {a : σ} (distinct : ∀ spelling, (Dict.keys (fields.write spelling a)).Nodup)
    (unique : fields.Unique a) : (object fields).Unique a := by
  intro spelling
  have once : ((fields.write spelling a).map Prod.fst).Nodup := distinct spelling
  have each : uniqueFields (fields.write spelling a) := uniqueFieldsIff.mpr (unique spelling)
  simp only [object, uniqueKeys, each, once, decide_true, Bool.and_self]

/-- What is written of such a value is read back whole. -/
theorem loadsWritten {codec : Codec σ} {a : σ} (keeps : codec.Keeps Short a) (unique : codec.Unique a) (spelling : Spelling) :
    (loads (render 0 (codec.encode spelling a))).bind codec.decode = some a := by
  rw [loadsRendered (fitsExact.mp (keeps.fits spelling)) (unique spelling)]
  exact keeps.reads spelling

end Kodezart.JsonCodec
