import GroundCore.Lib.FloatOps

/-! JSON values as a decoder leaves them.  A lenient reader looks a field up, reads it at a type and
falls back on a default, so it takes a field of another type for one that is absent.  `Typed` says
of a field that it is absent or of the type, and `Carried` that what is read from it reaches a
result. -/

namespace GroundCore.Lib

inductive JsonNumber (F64 : Type)
  | posInt (n : UInt64)
  | negInt (n : Int64)
  | float (x : F64)
  deriving DecidableEq

inductive JsonValue (F64 : Type)
  | null
  | bool (b : Bool)
  | number (n : JsonNumber F64)
  | string (text : String)
  | array (items : List (JsonValue F64))
  | object (entries : List (String × JsonValue F64))

namespace JsonValue

variable {F64 : Type}

def get? (value : JsonValue F64) (key : String) : Option (JsonValue F64) :=
  match value with
  | object entries => entries.lookup key
  | _ => none

/-- The value under `key`, which is `null` where there is none. -/
def index (value : JsonValue F64) (key : String) : JsonValue F64 := (value.get? key).getD null

/-- The value under `inner` in the object under `key`. -/
def at? (value : JsonValue F64) (key inner : String) : Option (JsonValue F64) :=
  (value.get? key).bind fun object => object.get? inner

def asStr : JsonValue F64 → Option String
  | string text => some text
  | _ => none

def asBool : JsonValue F64 → Option Bool
  | bool b => some b
  | _ => none

def asU64 : JsonValue F64 → Option UInt64
  | number (.posInt n) => some n
  | _ => none

def asF64 {F32 : Type} [FloatOps F64 F32] : JsonValue F64 → Option F64
  | number (.posInt n) => some (FloatOps.lit n.toNat)
  | number (.negInt n) => some (FloatOps.lit n.toInt)
  | number (.float x) => some x
  | _ => none

def asArray : JsonValue F64 → Option (List (JsonValue F64))
  | array items => some items
  | _ => none

def asObject : JsonValue F64 → Option (List (String × JsonValue F64))
  | object entries => some entries
  | _ => none

/-- An array with texts only. -/
def asTexts (value : JsonValue F64) : Option (List String) := value.asArray.bind (·.mapM asStr)

variable {α : Type} {field : Option (JsonValue F64)} {as : JsonValue F64 → Option α}

/-- A reading that takes nothing from `null` takes nothing from a value that is not there. -/
theorem read_getD (hnull : as null = none) : as (field.getD null) = field.bind as := by
  cases field with
  | none => exact hnull
  | some value => rfl

variable (as) in
theorem read_index (value : JsonValue F64) (key : String) (hnull : as null = none) :
    as (value.index key) = (value.get? key).bind as := read_getD hnull

variable (as) in
theorem read_index_index (value : JsonValue F64) (key inner : String) (hnull : as null = none) :
    as ((value.index key).index inner) = (value.at? key inner).bind as := by
  have hindex : (value.index key).index inner = (value.at? key inner).getD null := by
    unfold index at?
    cases value.get? key <;> rfl
  rw [hindex, read_getD hnull]

/-- A field that is absent or of the type that `as` reads. -/
def Typed (field : Option (JsonValue F64)) (as : JsonValue F64 → Option α) : Prop :=
  ∀ value, field = some value → (as value).isSome

/-- A field that is absent, or of the type that `as` reads and kept in the result. -/
def Carried (field : Option (JsonValue F64)) (as : JsonValue F64 → Option α) (kept : α → Prop) :
    Prop :=
  field = none ∨ ∃ value a, field = some value ∧ as value = some a ∧ kept a

variable {kept : α → Prop}

theorem Carried.typed (h : Carried field as kept) : Typed field as := by
  rintro value rfl
  obtain h | ⟨_, a, h, ha, -⟩ := h
  · contradiction
  · cases h
    rw [ha]
    rfl

/-- Where the result keeps everything that is read, a field can be lost only to its type. -/
theorem Typed.carried (h : Typed field as) (hkept : ∀ a, field.bind as = some a → kept a) :
    Carried field as kept := by
  cases field with
  | none => exact .inl rfl
  | some value =>
    obtain ⟨a, ha⟩ := Option.isSome_iff_exists.mp (h value rfl)
    exact .inr ⟨value, a, rfl, ha, hkept a ha⟩

/-- A field with a default. -/
theorem Typed.carried_of_getD {fallback : α} (h : Typed field as)
    (hkept : kept ((field.bind as).getD fallback)) : Carried field as kept := by
  refine h.carried fun a ha => ?_
  rw [ha] at hkept
  exact hkept

/-- A field that the reader insists on. -/
theorem carried_of_eq_some {a : α} (hread : field.bind as = some a) (ha : kept a) :
    Carried field as kept := by
  obtain ⟨value, hvalue, hread⟩ := Option.bind_eq_some_iff.mp hread
  exact .inr ⟨value, a, hvalue, hread, ha⟩

/-- A reader that passes over the items of another type loses none where all are of the type. -/
theorem filterMap_of_mapM {items : List (JsonValue F64)} {values : List α}
    (h : items.mapM as = some values) : items.filterMap as = values := by
  induction items generalizing values with
  | nil =>
    cases h
    rfl
  | cons item items ih =>
    rw [List.mapM_cons] at h
    obtain ⟨value, hvalue, h⟩ := Option.bind_eq_some_iff.mp h
    obtain ⟨rest, hrest, h⟩ := Option.bind_eq_some_iff.mp h
    cases h
    rw [List.filterMap_cons_some hvalue, ih hrest]

end JsonValue

end GroundCore.Lib
