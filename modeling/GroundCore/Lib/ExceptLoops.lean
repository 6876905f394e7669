import GroundCore.Lib.HashMap

/-! Loops that stop at the first error: when they come through, and what they have stored then. -/

namespace GroundCore.Lib

variable {α β ε : Type}

theorem bind_eq_ok {a : Except ε α} {next : α → Except ε β} {b : β} :
    (a >>= next) = .ok b ↔ ∃ x, a = .ok x ∧ next x = .ok b := by
  cases a with
  | error e => exact iff_of_false nofun (by rintro ⟨x, h, -⟩; contradiction)
  | ok x =>
    refine ⟨fun h => ⟨x, rfl, h⟩, ?_⟩
    rintro ⟨y, hy, h⟩
    cases hy
    exact h

theorem foldlM_ok {f : β → α → Except ε β} {l : List α}
    (h : ∀ b, ∀ a ∈ l, ∃ b', f b a = .ok b') (b : β) : ∃ b', l.foldlM f b = .ok b' := by
  induction l generalizing b with
  | nil => exact ⟨b, rfl⟩
  | cons a l ih =>
    obtain ⟨b', hb'⟩ := h b a List.mem_cons_self
    rw [List.foldlM_cons, hb']
    exact ih (fun b a' ha' => h b a' (List.mem_cons_of_mem a ha')) b'

theorem exists_mapM {m : Type → Type} [Monad m] [LawfulMonad m] {R : α → β → Prop} {f : α → m β}
    {l : List α} (h : ∀ a ∈ l, ∃ b, f a = pure b ∧ R a b) :
    ∃ bs, l.mapM f = pure bs ∧ List.Forall₂ R l bs := by
  induction l with
  | nil => exact ⟨[], List.mapM_nil, .nil⟩
  | cons a l ih =>
    obtain ⟨b, hb, hR⟩ := h a List.mem_cons_self
    obtain ⟨bs, hbs, hRs⟩ := ih fun a' ha' => h a' (List.mem_cons_of_mem a ha')
    exact ⟨b :: bs, by rw [List.mapM_cons, hb, pure_bind, hbs, pure_bind], .cons hR hRs⟩

theorem mapM_ok {R : α → β → Prop} {f : α → Except ε β} {l : List α}
    (h : ∀ a ∈ l, ∃ b, f a = .ok b ∧ R a b) : ∃ bs, l.mapM f = .ok bs ∧ List.Forall₂ R l bs :=
  exists_mapM h

/-- Every result that the loop stores is the result of its own item. -/
theorem forall₂_of_mapM {f : α → Except ε β} {l : List α} {bs : List β}
    (h : l.mapM f = .ok bs) : List.Forall₂ (fun a b => f a = .ok b) l bs := by
  induction l generalizing bs with
  | nil =>
    cases h
    exact .nil
  | cons a l ih =>
    rw [List.mapM_cons] at h
    obtain ⟨b, hb, h⟩ := bind_eq_ok.mp h
    obtain ⟨rest, hrest, h⟩ := bind_eq_ok.mp h
    cases h
    exact .cons hb (ih hrest)

theorem exists_of_mapM {f : α → Option β} {l : List α} {bs : List β} (h : l.mapM f = some bs) :
    ∀ a ∈ l, ∃ b, f a = some b := by
  induction l generalizing bs with
  | nil => exact nofun
  | cons a l ih =>
    rw [List.mapM_cons] at h
    obtain ⟨b, hb, h⟩ := Option.bind_eq_some_iff.mp h
    obtain ⟨rest, hrest, -⟩ := Option.bind_eq_some_iff.mp h
    exact List.forall_mem_cons.mpr ⟨⟨b, hb⟩, ih hrest⟩

/-- A property of every item, by what it means for the results. -/
theorem forall₂_and_iff {F R : α → β → Prop} {P : α → Prop} {Q : β → Prop} {l : List α}
    {bs : List β} (h : List.Forall₂ F l bs) (hitem : ∀ a b, F a b → (R a b ∧ Q b ↔ P a)) :
    (List.Forall₂ R l bs ∧ ∀ b ∈ bs, Q b) ↔ ∀ a ∈ l, P a := by
  induction h with
  | nil => exact iff_of_true ⟨.nil, nofun⟩ nofun
  | cons hab _ ih =>
    rw [List.forall₂_cons, List.forall_mem_cons, List.forall_mem_cons, ← ih, ← hitem _ _ hab]
    exact and_and_and_comm

variable {K V : Type} [DecidableEq K] {f : K × α → Except ε V} {l : List (K × α)}

/-- Results stored under distinct keys. -/
theorem foldlM_insert_ok {R : K × α → V → Prop} (hnodup : (l.map Prod.fst).Nodup)
    (h : ∀ e ∈ l, ∃ v, f e = .ok v ∧ R e v) (m : HashMap K V) :
    ∃ m', l.foldlM (fun m e => do return HashMap.insert m e.1 (← f e)) m = .ok m' ∧
      (∀ e ∈ l, ∃ v, m'.get? e.1 = some v ∧ R e v) ∧
      ∀ k, k ∉ l.map Prod.fst → m'.get? k = m.get? k := by
  induction l generalizing m with
  | nil => exact ⟨m, rfl, nofun, fun _ _ => rfl⟩
  | cons e l ih =>
    rw [List.map_cons, List.nodup_cons] at hnodup
    obtain ⟨v, hv, hR⟩ := h e List.mem_cons_self
    obtain ⟨m', hm', hstored, hother⟩ := ih hnodup.2
      (fun e' he' => h e' (List.mem_cons_of_mem e he')) (m.insert e.1 v)
    refine ⟨m', ?_, fun e' he' => ?_, fun k hk => ?_⟩
    · rw [List.foldlM_cons, hv]
      exact hm'
    · rcases List.mem_cons.mp he' with rfl | he'
      · refine ⟨v, ?_, hR⟩
        rw [hother _ hnodup.1, HashMap.get?_insert, if_pos rfl]
      · exact hstored e' he'
    · rw [List.map_cons, List.mem_cons, not_or] at hk
      rw [hother k hk.2, HashMap.get?_insert, if_neg hk.1]

theorem ok_of_foldlM_insert {m m' : HashMap K V}
    (h : l.foldlM (fun m e => do return HashMap.insert m e.1 (← f e)) m = .ok m') :
    ∀ e ∈ l, ∃ v, f e = .ok v := by
  induction l generalizing m with
  | nil => exact nofun
  | cons e l ih =>
    rw [List.foldlM_cons] at h
    cases hv : f e with
    | error error => rw [hv] at h; contradiction
    | ok v =>
      rw [hv] at h
      intro e' he'
      rcases List.mem_cons.mp he' with rfl | he'
      · exact ⟨v, hv⟩
      · exact ih h e' he'

end GroundCore.Lib
