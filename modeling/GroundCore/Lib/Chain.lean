import Mathlib.Data.List.Basic

/-! Lists whose elements form a chain, each element starting where the one before it ends, and
lists whose elements each meet a condition on the elements before them. -/

namespace GroundCore.Lib

variable {α β H : Type*}

/-- From `start`, each element of the list has its source at the target of the one before it. -/
def Chained (source target : α → H) : H → List α → Prop
  | _, [] => True
  | start, a :: l => source a = start ∧ Chained source target (target a) l

/-- Where a chain from `start` ends. -/
def endpoint (target : α → H) : H → List α → H
  | start, [] => start
  | _, a :: l => endpoint target (target a) l

variable {source target : α → H} {start : H} {l : List α} {a : α}

@[simp] theorem chained_nil : Chained source target start [] := trivial

@[simp] theorem chained_cons :
    Chained source target start (a :: l) ↔ source a = start ∧ Chained source target (target a) l :=
  Iff.rfl

@[simp] theorem endpoint_nil : endpoint target start [] = start := rfl

@[simp] theorem endpoint_cons :
    endpoint target start (a :: l) = endpoint target (target a) l := rfl

@[simp] theorem endpoint_append_singleton : endpoint target start (l ++ [a]) = target a := by
  induction l generalizing start with
  | nil => rfl
  | cons b l ih => exact ih

theorem chained_append_singleton :
    Chained source target start (l ++ [a]) ↔
      Chained source target start l ∧ source a = endpoint target start l := by
  induction l generalizing start with
  | nil => simp
  | cons b l ih => simp [ih, and_assoc]

/-- Whether a list is a chain depends on the sources and targets of its elements alone. -/
theorem chained_map {f : β → α} {l : List β} :
    Chained source target start (l.map f) ↔
      Chained (fun b => source (f b)) (fun b => target (f b)) start l := by
  induction l generalizing start with
  | nil => exact Iff.rfl
  | cons b l ih => simp [ih]

end GroundCore.Lib

namespace GroundCore.Lib

variable {α β : Type*} {P : List α → α → Prop}

/-- After `done`, every element meets `P` on those before it. -/
def EachAfter (P : List α → α → Prop) : List α → List α → Prop
  | _, [] => True
  | done, a :: rest => P done a ∧ EachAfter P (done ++ [a]) rest

@[simp] theorem eachAfter_nil (done : List α) : EachAfter P done [] := trivial

@[simp] theorem eachAfter_cons {done rest : List α} {a : α} :
    EachAfter P done (a :: rest) ↔ P done a ∧ EachAfter P (done ++ [a]) rest := Iff.rfl

theorem eachAfter_append {done first second : List α} :
    EachAfter P done (first ++ second) ↔
      EachAfter P done first ∧ EachAfter P (done ++ first) second := by
  induction first generalizing done with
  | nil => simp
  | cons a first ih => simp [ih, and_assoc]

theorem eachAfter_iff_split {done l : List α} :
    EachAfter P done l ↔ ∀ front a back, l = front ++ a :: back → P (done ++ front) a := by
  constructor
  · rintro h front a back rfl
    exact (eachAfter_append.mp h).2.1
  · intro h
    induction l generalizing done with
    | nil => trivial
    | cons a rest ih =>
      refine ⟨by simpa using h [] a rest rfl, ih fun front b back hrest => ?_⟩
      simpa using h (a :: front) b back (by rw [hrest]; rfl)

/-- Lists that meet a condition by themselves meet it one after another, when more elements before
do no harm. -/
theorem eachAfter_flatMap (hmono : ∀ {before done : List α} {a : α}, P done a → P (before ++ done) a)
    {l : List β} {f : β → List α} (h : ∀ b ∈ l, EachAfter P [] (f b)) (done : List α) :
    EachAfter P done (l.flatMap f) := by
  rw [eachAfter_iff_split]
  induction l generalizing done with
  | nil => intro front a back hnil; simp at hnil
  | cons b l ih =>
    rw [← eachAfter_iff_split, List.flatMap_cons, eachAfter_append]
    constructor
    · rw [eachAfter_iff_split]
      intro front a back hsplit
      exact hmono (eachAfter_iff_split.mp (h b List.mem_cons_self) front a back hsplit)
    · exact eachAfter_iff_split.mpr (ih (fun c hc => h c (List.mem_cons_of_mem b hc)) _)

end GroundCore.Lib
