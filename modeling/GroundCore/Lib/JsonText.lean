import GroundCore.Lib.Sha256

/-! The text that a compact JSON writer gives for strings and for objects of plain fields.  Where
such a text ends does not depend on what follows it, and it tells what it was written for. -/

namespace GroundCore.Lib.JsonText

/-! ### Strings -/

/-- The characters that are written as a backslash and a letter. -/
def escapes : List (Char × Char) :=
  [('"', '"'), ('\\', '\\'), ('\x08', 'b'), ('\x0c', 'f'), ('\n', 'n'), ('\r', 'r'), ('\t', 't')]

def escapeChar (c : Char) : List Char :=
  match escapes.lookup c with
  | some letter => ['\\', letter]
  | none =>
    if c.toNat < 32 then ['\\', 'u', '0', '0', hexDigit (c.toNat / 16), hexDigit c.toNat] else [c]

def stringText (s : String) : List Char := '"' :: (s.toList.flatMap escapeChar ++ ['"'])

theorem escapes_inj : ∀ p ∈ escapes, ∀ q ∈ escapes, p.2 = q.2 → p.1 = q.1 := by decide

theorem escapes_ne_u : ∀ p ∈ escapes, p.2 ≠ 'u' := by decide

theorem mem_escapes_of_lookup {c letter : Char} (h : escapes.lookup c = some letter) :
    (c, letter) ∈ escapes := by
  obtain ⟨l₁, l₂, heq, -⟩ := List.lookup_eq_some_iff.mp h
  rw [heq]
  simp

/-- A character in a string is written in one of three ways. -/
theorem escapeChar_cases (c : Char) :
    (∃ letter, (c, letter) ∈ escapes ∧ escapeChar c = ['\\', letter]) ∨
      (c.toNat < 32 ∧
        escapeChar c = ['\\', 'u', '0', '0', hexDigit (c.toNat / 16), hexDigit c.toNat]) ∨
      (c ≠ '"' ∧ c ≠ '\\' ∧ escapeChar c = [c]) := by
  unfold escapeChar
  cases hlookup : escapes.lookup c with
  | some letter => exact .inl ⟨letter, mem_escapes_of_lookup hlookup, rfl⟩
  | none =>
    by_cases hcontrol : c.toNat < 32
    · exact .inr (.inl ⟨hcontrol, if_pos hcontrol⟩)
    · refine .inr (.inr ⟨?_, ?_, if_neg hcontrol⟩)
      · rintro rfl
        contradiction
      · rintro rfl
        contradiction

theorem control_inj {c d : Char} (hc : c.toNat < 32) (hd : d.toNat < 32)
    (hhigh : hexDigit (c.toNat / 16) = hexDigit (d.toNat / 16))
    (hlow : hexDigit c.toNat = hexDigit d.toNat) : c = d := by
  have := hexDigit_inj hhigh
  have := hexDigit_inj hlow
  exact Char.toNat_inj.mp (by omega)

variable {c d : Char} {r s : List Char}

theorem escapeChar_append_inj (h : escapeChar c ++ r = escapeChar d ++ s) : c = d ∧ r = s := by
  rcases escapeChar_cases c with ⟨letter, hc, hcode⟩ | ⟨hc, hcode⟩ | ⟨-, hc, hcode⟩ <;>
    rcases escapeChar_cases d with ⟨letter', hd, hcode'⟩ | ⟨hd, hcode'⟩ | ⟨-, hd, hcode'⟩ <;>
    rw [hcode, hcode'] at h <;>
    simp only [List.cons_append, List.nil_append, List.cons.injEq, true_and] at h
  · exact ⟨escapes_inj _ hc _ hd h.1, h.2⟩
  · exact absurd h.1 (escapes_ne_u _ hc)
  · exact absurd h.1.symm hd
  · exact absurd h.1.symm (escapes_ne_u _ hd)
  · exact ⟨control_inj hc hd h.1 h.2.1, h.2.2⟩
  · exact absurd h.1.symm hd
  · exact absurd h.1 hc
  · exact absurd h.1 hc
  · exact h

/-- No character is written with a quotation mark in front. -/
theorem quote_ne_escapeChar (h : '"' :: r = escapeChar c ++ s) : False := by
  rcases escapeChar_cases c with ⟨letter, -, hcode⟩ | ⟨-, hcode⟩ | ⟨hc, -, hcode⟩ <;>
    rw [hcode, List.cons_append, List.cons.injEq] at h
  · exact absurd h.1 (by decide)
  · exact absurd h.1 (by decide)
  · exact hc h.1.symm

theorem escaped_append_inj {x y : List Char}
    (h : x.flatMap escapeChar ++ '"' :: r = y.flatMap escapeChar ++ '"' :: s) :
    x = y ∧ r = s := by
  induction x generalizing y with
  | nil =>
    cases y with
    | nil => exact ⟨rfl, (List.cons.inj h).2⟩
    | cons d y =>
      rw [List.flatMap_cons, List.append_assoc] at h
      exact (quote_ne_escapeChar h).elim
  | cons c x ih =>
    cases y with
    | nil =>
      rw [List.flatMap_cons, List.append_assoc] at h
      exact (quote_ne_escapeChar h.symm).elim
    | cons d y =>
      rw [List.flatMap_cons, List.flatMap_cons, List.append_assoc, List.append_assoc] at h
      obtain ⟨rfl, hrest⟩ := escapeChar_append_inj h
      obtain ⟨rfl, hrs⟩ := ih hrest
      exact ⟨rfl, hrs⟩

theorem stringText_append_inj {x y : String} (h : stringText x ++ r = stringText y ++ s) :
    x = y ∧ r = s := by
  simp only [stringText, List.cons_append, List.append_assoc, List.nil_append, List.cons.injEq,
    true_and] at h
  obtain ⟨hxy, hrs⟩ := escaped_append_inj h
  exact ⟨String.toList_inj.mp hxy, hrs⟩

/-! ### Objects -/

/-- A field that is no container: a number, a truth value or null, by its characters, or a
string. -/
inductive Scalar
  | token (text : List Char)
  | string (s : String)
  deriving DecidableEq

/-- No character of the token stands for something else. -/
def Scalar.Valid : Scalar → Prop
  | token text => ∀ c ∈ text, c ≠ '"' ∧ c ≠ ',' ∧ c ≠ '}'
  | string _ => True

def scalarText : Scalar → List Char
  | .token text => text
  | .string s => stringText s

/-- The fields after the first, and the end of the object. -/
def fieldsText : List (String × Scalar) → List Char
  | [] => ['}']
  | (key, value) :: fields =>
    ',' :: (stringText key ++ ':' :: (scalarText value ++ fieldsText fields))

def objectText : List (String × Scalar) → List Char
  | [] => ['{', '}']
  | (key, value) :: fields =>
    '{' :: (stringText key ++ ':' :: (scalarText value ++ fieldsText fields))

/-- What may follow a field. -/
def EndsField (text : List Char) : Prop := ∃ c rest, text = c :: rest ∧ (c = ',' ∨ c = '}')

theorem endsField_fieldsText (fields : List (String × Scalar)) (r : List Char) :
    EndsField (fieldsText fields ++ r) := by
  cases fields with
  | nil => exact ⟨'}', r, rfl, .inr rfl⟩
  | cons field fields => exact ⟨',', _, rfl, .inl rfl⟩

theorem token_append_inj {x y : List Char} (hx : Scalar.Valid (.token x))
    (hy : Scalar.Valid (.token y)) (hr : EndsField r) (hs : EndsField s)
    (h : x ++ r = y ++ s) : x = y ∧ r = s := by
  induction x generalizing y with
  | nil =>
    cases y with
    | nil => exact ⟨rfl, h⟩
    | cons d y =>
      obtain ⟨c, rest, rfl, hc⟩ := hr
      obtain ⟨rfl, -⟩ := List.cons.inj h
      have hd := (hy c List.mem_cons_self).2
      exact absurd hc (by simp [hd])
  | cons c x ih =>
    cases y with
    | nil =>
      obtain ⟨d, rest, rfl, hd⟩ := hs
      obtain ⟨rfl, -⟩ := List.cons.inj h
      have hc := (hx c List.mem_cons_self).2
      exact absurd hd (by simp [hc])
    | cons d y =>
      obtain ⟨rfl, hrest⟩ := List.cons.inj h
      obtain ⟨rfl, hrs⟩ := ih (fun e he => hx e (List.mem_cons_of_mem c he))
        (fun e he => hy e (List.mem_cons_of_mem c he)) hrest
      exact ⟨rfl, hrs⟩

/-- A token is not taken for a string. -/
theorem token_ne_string {x : List Char} {y : String} (hx : Scalar.Valid (.token x))
    (hr : EndsField r) (h : x ++ r = stringText y ++ s) : False := by
  cases x with
  | nil =>
    obtain ⟨c, rest, rfl, hc⟩ := hr
    obtain ⟨rfl, -⟩ := List.cons.inj h
    simp at hc
  | cons c x =>
    obtain ⟨rfl, -⟩ := List.cons.inj h
    exact (hx '"' List.mem_cons_self).1 rfl

theorem scalarText_append_inj {v w : Scalar} (hv : v.Valid) (hw : w.Valid) (hr : EndsField r)
    (hs : EndsField s) (h : scalarText v ++ r = scalarText w ++ s) : v = w ∧ r = s := by
  cases v with
  | token x =>
    cases w with
    | token y =>
      obtain ⟨rfl, hrs⟩ := token_append_inj hv hw hr hs h
      exact ⟨rfl, hrs⟩
    | string y => exact (token_ne_string hv hr h).elim
  | string x =>
    cases w with
    | token y => exact (token_ne_string hw hs h.symm).elim
    | string y =>
      obtain ⟨rfl, hrs⟩ := stringText_append_inj h
      exact ⟨rfl, hrs⟩

theorem field_append_inj {key key' : String} {v w : Scalar} (hv : v.Valid) (hw : w.Valid)
    (hr : EndsField r) (hs : EndsField s)
    (h : stringText key ++ ':' :: (scalarText v ++ r) =
      stringText key' ++ ':' :: (scalarText w ++ s)) : (key, v) = (key', w) ∧ r = s := by
  obtain ⟨rfl, hvalue⟩ := stringText_append_inj h
  obtain ⟨rfl, hrs⟩ := scalarText_append_inj hv hw hr hs (List.cons.inj hvalue).2
  exact ⟨rfl, hrs⟩

variable {fields fields' : List (String × Scalar)}

theorem fieldsText_append_inj (hvalid : ∀ field ∈ fields, field.2.Valid)
    (hvalid' : ∀ field ∈ fields', field.2.Valid)
    (h : fieldsText fields ++ r = fieldsText fields' ++ s) : fields = fields' ∧ r = s := by
  induction fields generalizing fields' with
  | nil =>
    cases fields' with
    | nil => exact ⟨rfl, (List.cons.inj h).2⟩
    | cons field fields' => exact absurd (List.cons.inj h).1 (by decide)
  | cons field fields ih =>
    cases fields' with
    | nil => exact absurd (List.cons.inj h).1 (by decide)
    | cons field' fields' =>
      simp only [fieldsText, List.cons_append, List.append_assoc, List.cons.injEq,
        true_and] at h
      obtain ⟨hfield, hrest⟩ := field_append_inj (hvalid field List.mem_cons_self)
        (hvalid' field' List.mem_cons_self) (endsField_fieldsText _ _) (endsField_fieldsText _ _) h
      obtain ⟨rfl, hrs⟩ := ih (fun f hf => hvalid f (List.mem_cons_of_mem field hf))
        (fun f hf => hvalid' f (List.mem_cons_of_mem field' hf)) hrest
      exact ⟨by rw [show field = field' from hfield], hrs⟩

/-- The text of an object tells its fields, and does not go on into what follows. -/
theorem objectText_append_inj (hvalid : ∀ field ∈ fields, field.2.Valid)
    (hvalid' : ∀ field ∈ fields', field.2.Valid)
    (h : objectText fields ++ r = objectText fields' ++ s) : fields = fields' ∧ r = s := by
  cases fields with
  | nil =>
    cases fields' with
    | nil => exact ⟨rfl, (List.cons.inj (List.cons.inj h).2).2⟩
    | cons field fields' => exact absurd (List.cons.inj (List.cons.inj h).2).1 (by decide)
  | cons field fields =>
    cases fields' with
    | nil => exact absurd (List.cons.inj (List.cons.inj h).2).1 (by decide)
    | cons field' fields' =>
      simp only [objectText, List.cons_append, List.append_assoc, List.cons.injEq,
        true_and] at h
      obtain ⟨hfield, hrest⟩ := field_append_inj (hvalid field List.mem_cons_self)
        (hvalid' field' List.mem_cons_self) (endsField_fieldsText _ _) (endsField_fieldsText _ _) h
      obtain ⟨rfl, hrs⟩ := fieldsText_append_inj
        (fun f hf => hvalid f (List.mem_cons_of_mem field hf))
        (fun f hf => hvalid' f (List.mem_cons_of_mem field' hf)) hrest
      exact ⟨by rw [show field = field' from hfield], hrs⟩

/-! ### Tokens -/

def ofBool (b : Bool) : Scalar := .token (if b then "true" else "false").toList

/-- A whole number, in decimal digits. -/
def ofNat (n : ℕ) : Scalar := .token (Nat.toDigits 10 n)

theorem valid_ofBool (b : Bool) : (ofBool b).Valid := by
  cases b <;> simp [ofBool, Scalar.Valid]

theorem valid_ofNat (n : ℕ) : (ofNat n).Valid := by
  intro c hc
  have hdigit := Nat.isDigit_of_mem_toDigits (by decide) (by decide) hc
  refine ⟨?_, ?_, ?_⟩ <;> rintro rfl <;> contradiction

theorem ofBool_inj {b b' : Bool} : ofBool b = ofBool b' ↔ b = b' := by
  cases b <;> cases b' <;> decide

theorem ofNat_inj {m n : ℕ} : ofNat m = ofNat n ↔ m = n := by
  refine ⟨fun h => ?_, fun h => h ▸ rfl⟩
  have hdigits := congrArg (fun digits => Nat.ofDigitChars 10 digits 0) (Scalar.token.inj h)
  simpa only [Nat.ofDigitChars_ten_toDigits] using hdigits

end GroundCore.Lib.JsonText
