import Mathlib.Data.List.Perm.Basic

/-!
# Results of steps that may fail

When a composed step succeeds, all of its parts have succeeded. The lemmas here take a success
apart, one for each way of composing steps, so that no proof has to open the monad of results.

## Main results

* `Except.bind_eq_ok_iff`, `Except.map_eq_ok_iff`, `Except.mapError_eq_ok_iff`: single
  steps, with `Except.bind_eq_error_iff`, `Except.map_eq_error_iff`,
  `Except.mapError_eq_error_iff` for those that fail.
* `Except.mapM_eq_ok_iff`: a step for each member of a list.
* `Except.mapM_perm`: the order of the list does not decide whether all steps succeed.
* `Except.foldlM_invariant`: what steps through a list keep.
* `Except.Alike`: steps that fail with the same fault, with a lemma for each way of
  composing steps.
* `Except.FailsFor`: why a step fails, with a lemma for each way of composing steps.
-/

namespace Except

variable {ε ε' α β γ : Type}

/-- After a success the next step is taken on its value. -/
@[simp] theorem ok_bind (a : α) (f : α → Except ε β) : (Except.ok a >>= f) = f a := rfl

/-- Returning the value of a step changes nothing. -/
@[simp] theorem bind_ok (x : Except ε α) : (x >>= fun a => .ok a) = x := by
  cases x <;> rfl

/-- Two steps in a row succeed exactly when the first does, and the second on its value. -/
@[simp] theorem bind_eq_ok_iff {x : Except ε α} {f : α → Except ε β} {b : β} :
    (x >>= f) = .ok b ↔ ∃ a, x = .ok a ∧ f a = .ok b := by
  cases x with
  | error e =>
    constructor
    · intro h
      cases h
    · rintro ⟨a, h, -⟩
      cases h
  | ok a =>
    constructor
    · intro h
      exact ⟨a, rfl, h⟩
    · rintro ⟨a', h, hf⟩
      cases h
      exact hf

/-- A step that only returns a value succeeds with it. -/
@[simp] theorem pure_eq_ok_iff {a b : α} : (pure a : Except ε α) = .ok b ↔ a = b := by
  rw [show (pure a : Except ε α) = .ok a from rfl, Except.ok.injEq]

/-- A step that fails does not succeed. -/
@[simp] theorem throw_eq_ok_iff {e : ε} {b : α} : (throw e : Except ε α) = .ok b ↔ False := by
  constructor
  · intro h
    cases h
  · exact False.elim

/-- A function applied to a result succeeds exactly when the result does. -/
@[simp] theorem map_eq_ok_iff {x : Except ε α} {f : α → β} {b : β} :
    x.map f = .ok b ↔ ∃ a, x = .ok a ∧ f a = b := by
  cases x <;> simp [Except.map]

/-- Giving faults another form keeps successes. -/
@[simp] theorem mapError_eq_ok_iff {x : Except ε α} {f : ε → ε'} {a : α} :
    x.mapError f = .ok a ↔ x = .ok a := by
  cases x <;> simp [Except.mapError]

/-- Two steps in a row fail exactly when the first does, or the second on its value. -/
theorem bind_eq_error_iff {x : Except ε α} {f : α → Except ε β} {e : ε} :
    (x >>= f) = .error e ↔ x = .error e ∨ ∃ a, x = .ok a ∧ f a = .error e := by
  cases x with
  | error e' =>
    constructor
    · intro h
      cases h
      exact .inl rfl
    · rintro (h | ⟨a, h, -⟩)
      · cases h
        rfl
      · cases h
  | ok a => simp

/-- Giving faults another form keeps that there is one. -/
theorem mapError_eq_error_iff {x : Except ε α} {f : ε → ε'} {e : ε'} :
    x.mapError f = .error e ↔ ∃ cause, x = .error cause ∧ f cause = e := by
  cases x <;> simp [Except.mapError]

/-- A function applied to a result fails exactly when the result does. -/
theorem map_eq_error_iff {x : Except ε α} {f : α → β} {e : ε} :
    x.map f = .error e ↔ x = .error e := by
  cases x <;> simp [Except.map]

/-- Whether a result is a success. -/
theorem toBool_eq_true_iff {x : Except ε α} : x.toBool = true ↔ ∃ a, x = .ok a := by
  cases x <;> simp [Except.toBool]

/-- Whether a step succeeds with a result of some kind. -/
instance decidableExistsOk (x : Except ε α) (P : α → Prop) [DecidablePred P] :
    Decidable (∃ a, x = .ok a ∧ P a) :=
  match x with
  | .ok a => decidable_of_iff (P a) (by simp)
  | .error _ => .isFalse (by simp)

/-- A step for each member of a list succeeds exactly when each of them does. -/
theorem mapM_eq_ok_iff {f : α → Except ε β} {as : List α} {bs : List β} :
    as.mapM f = .ok bs ↔ List.Forall₂ (fun a b => f a = .ok b) as bs := by
  induction as generalizing bs with
  | nil =>
    rw [List.mapM_nil, pure_eq_ok_iff, List.forall₂_nil_left_iff]
    exact eq_comm
  | cons a as ih =>
    simp only [List.mapM_cons, bind_eq_ok_iff, pure_eq_ok_iff, List.forall₂_cons_left_iff, ih]
    constructor
    · rintro ⟨b, hb, bs', hbs, rfl⟩
      exact ⟨b, bs', hb, hbs, rfl⟩
    · rintro ⟨b, bs', hb, hbs, rfl⟩
      exact ⟨b, hb, bs', hbs, rfl⟩

/-- If a step succeeds for each member of a list, it does so in any order, with the same
values in that order. -/
theorem mapM_perm {f : α → Except ε β} {as as' : List α} {bs : List β} (perm : as.Perm as')
    (h : as.mapM f = .ok bs) : ∃ bs', as'.mapM f = .ok bs' ∧ bs.Perm bs' := by
  obtain ⟨bs', hbs', hperm⟩ := List.perm_comp_forall₂ perm.symm (mapM_eq_ok_iff.mp h)
  exact ⟨bs', mapM_eq_ok_iff.mpr hbs', hperm.symm⟩

/-- Where the values given by one step decide whether another gives them as well, the second
step gives them for a whole list if it does for each member. -/
theorem forall₂_iff_forall {R S : α → β → Prop} {P : α → Prop}
    (each : ∀ a b, R a b → (S a b ↔ P a)) {as : List α} {bs : List β}
    (h : List.Forall₂ R as bs) : List.Forall₂ S as bs ↔ ∀ a ∈ as, P a := by
  induction h with
  | nil => simp
  | cons hab _ ih => rw [List.forall₂_cons, List.forall_mem_cons, ih, each _ _ hab]

/-- A step succeeds for a list exactly if it does for each member. -/
theorem exists_mapM_eq_ok_iff {f : α → Except ε β} {as : List α} :
    (∃ bs, as.mapM f = .ok bs) ↔ ∀ a ∈ as, ∃ b, f a = .ok b := by
  induction as with
  | nil => simp
  | cons a as ih =>
    simp only [List.mapM_cons, bind_eq_ok_iff, pure_eq_ok_iff, List.forall_mem_cons, ← ih]
    constructor
    · rintro ⟨_, b, hb, bs, hbs, -⟩
      exact ⟨⟨b, hb⟩, bs, hbs⟩
    · rintro ⟨⟨b, hb⟩, bs, hbs⟩
      exact ⟨b :: bs, b, hb, bs, hbs, rfl⟩

/-- A step for each member of a list fails with the fault of the first member it fails for. -/
theorem mapM_eq_error_iff {f : α → Except ε β} {as : List α} {e : ε} :
    as.mapM f = .error e ↔
      ∃ before a after, as = before ++ a :: after ∧ (∀ b ∈ before, ∃ c, f b = .ok c) ∧
        f a = .error e := by
  induction as with
  | nil =>
    refine iff_of_false nofun ?_
    rintro ⟨before, a, after, happend, -, -⟩
    exact List.append_ne_nil_of_right_ne_nil before (List.cons_ne_nil a after) happend.symm
  | cons a as ih =>
    rw [List.mapM_cons]
    cases ha : f a with
    | error e' =>
      constructor
      · intro h
        cases h
        exact ⟨[], a, as, rfl, nofun, ha⟩
      · rintro ⟨before, a', after, happend, hbefore, ha'⟩
        cases before with
        | nil =>
          obtain ⟨rfl, rfl⟩ := List.cons.inj happend
          rw [← ha, ha']
          rfl
        | cons b before =>
          obtain ⟨rfl, -⟩ := List.cons.inj happend
          obtain ⟨c, hc⟩ := hbefore a List.mem_cons_self
          rw [ha] at hc
          cases hc
    | ok c =>
      have hrest : (do return c :: (← as.mapM f)) = .error e ↔ as.mapM f = .error e := by
        cases as.mapM f <;> simp [pure, Except.pure, bind, Except.bind]
      rw [ok_bind, hrest, ih]
      constructor
      · rintro ⟨before, a', after, rfl, hbefore, ha'⟩
        exact ⟨a :: before, a', after, rfl, List.forall_mem_cons.mpr ⟨⟨c, ha⟩, hbefore⟩, ha'⟩
      · rintro ⟨before, a', after, happend, hbefore, ha'⟩
        cases before with
        | nil =>
          obtain ⟨rfl, rfl⟩ := List.cons.inj happend
          rw [ha] at ha'
          cases ha'
        | cons b before =>
          obtain ⟨rfl, rfl⟩ := List.cons.inj happend
          exact ⟨before, a', after, rfl, (List.forall_mem_cons.mp hbefore).2, ha'⟩

/-- Where each value given tells something of the member it is given for, all values tell it
of the list. -/
theorem map_eq_of_forall₂ {R : α → β → Prop} {f : α → γ} {g : β → γ}
    (each : ∀ a b, R a b → g b = f a) {as : List α} {bs : List β} (h : List.Forall₂ R as bs) :
    bs.map g = as.map f := by
  induction h with
  | nil => rfl
  | cons hab _ ih => rw [List.map_cons, List.map_cons, each _ _ hab, ih]

/-- Each value given for a list is given for a member of it. -/
theorem exists_of_forall₂ {R : α → β → Prop} {as : List α} {bs : List β}
    (h : List.Forall₂ R as bs) {b : β} (hb : b ∈ bs) : ∃ a ∈ as, R a b := by
  induction h with
  | nil => cases hb
  | @cons a b' as bs hab _ ih =>
    obtain rfl | hb := List.mem_cons.mp hb
    · exact ⟨a, List.mem_cons_self, hab⟩
    · obtain ⟨a', ha', hab'⟩ := ih hb
      exact ⟨a', List.mem_cons_of_mem a ha', hab'⟩

/-- Members that are related one by one are related as members of their lists. -/
theorem forall₂_mem {R : α → β → Prop} {as : List α} {bs : List β} (h : List.Forall₂ R as bs) :
    List.Forall₂ (fun a b => a ∈ as ∧ b ∈ bs ∧ R a b) as bs := by
  induction h with
  | nil => exact .nil
  | cons hab _ ih =>
    refine .cons ⟨List.mem_cons_self, List.mem_cons_self, hab⟩ (ih.imp ?_)
    exact fun _ _ ⟨ha, hb, h⟩ => ⟨List.mem_cons_of_mem _ ha, List.mem_cons_of_mem _ hb, h⟩

/-- Lists that are related through a list between them. -/
theorem forall₂_trans {R : α → β → Prop} {S : β → γ → Prop} {T : α → γ → Prop}
    (each : ∀ a b c, R a b → S b c → T a c) {as : List α} {bs : List β} {cs : List γ}
    (h : List.Forall₂ R as bs) (h' : List.Forall₂ S bs cs) : List.Forall₂ T as cs := by
  induction h generalizing cs with
  | nil =>
    cases h'
    exact .nil
  | cons hab _ ih =>
    cases h' with
    | cons hbc hrest => exact .cons (each _ _ _ hab hbc) (ih hrest)

/-- A step for each member of each of some lists is a step for each member of the
joined list. -/
theorem mapM_flatten (f : α → Except ε β) (ass : List (List α)) :
    (do return (← ass.mapM fun as => as.mapM f).flatten) = ass.flatten.mapM f := by
  induction ass with
  | nil => rfl
  | cons as ass ih =>
    rw [List.flatten_cons, List.mapM_append, ← ih]
    simp only [List.mapM_cons, bind_assoc, pure_bind, List.flatten_cons]

/-- What a step keeps is kept by steps through a list. -/
theorem foldlM_invariant {σ : Type} {f : σ → α → Except ε σ} {P : σ → Prop}
    (step : ∀ s a s', f s a = .ok s' → P s → P s') {as : List α} {s s' : σ}
    (h : as.foldlM f s = .ok s') (hs : P s) : P s' := by
  induction as generalizing s with
  | nil =>
    rw [List.foldlM_nil, pure_eq_ok_iff] at h
    exact h ▸ hs
  | cons a as ih =>
    rw [List.foldlM_cons, bind_eq_ok_iff] at h
    obtain ⟨mid, hmid, hrest⟩ := h
    exact ih hrest (step s a mid hmid hs)

/-- Results have the same value, or both none, exactly if what one succeeds with the other
succeeds with. -/
theorem toOption_eq_iff {x : Except ε α} {y : Except ε' α} :
    x.toOption = y.toOption ↔ ∀ a, x = .ok a ↔ y = .ok a := by
  cases x with
  | error e => cases y <;> simp [Except.toOption]
  | ok a =>
    cases y with
    | error e => simp [Except.toOption]
    | ok b =>
      simp only [Except.toOption, Option.some.injEq, ok.injEq]
      exact ⟨fun h c => h ▸ .rfl, fun h => ((h a).mp rfl).symm⟩

/-- The value of a result to which a function is applied. -/
theorem toOption_map (x : Except ε α) (f : α → β) : (x.map f).toOption = x.toOption.map f := by
  cases x <;> rfl

/-! ### Steps that fail alike -/

/-- The fault of a step that fails. -/
def fault? : Except ε α → Option ε
  | .error e => some e
  | .ok _ => none

@[simp] theorem fault?_error (e : ε) : (Except.error e : Except ε α).fault? = some e := rfl

@[simp] theorem fault?_ok (a : α) : (Except.ok a : Except ε α).fault? = none := rfl

/-- A step has a fault exactly if it fails with it. -/
theorem fault?_eq_some_iff {x : Except ε α} {e : ε} : x.fault? = some e ↔ x = .error e := by
  cases x <;> simp

/-- Whether two steps fail with the same fault, or both succeed, with values that
are related. -/
inductive Alike (R : α → β → Prop) : Except ε α → Except ε β → Prop
  | error (e : ε) : Alike R (.error e) (.error e)
  | ok {a : α} {b : β} : R a b → Alike R (.ok a) (.ok b)

/-- The fault of a step whose faults are given another form. -/
theorem fault?_mapError (x : Except ε α) (f : ε → ε') :
    (x.mapError f).fault? = x.fault?.map f := by
  cases x <;> rfl

/-- Returning something made from the value of a step does not change its fault. -/
theorem fault?_bind_pure (x : Except ε α) (f : α → β) :
    (x >>= fun a => pure (f a)).fault? = x.fault? := by
  cases x <;> rfl

namespace Alike

variable {α' β' : Type} {R : α → β → Prop} {S : α' → β' → Prop} {x : Except ε α}
  {y : Except ε β}

/-- A step runs like itself. -/
theorem refl (x : Except ε α) : x.Alike Eq x := by
  cases x with
  | error e => exact .error e
  | ok a => exact .ok rfl

/-- Steps that run alike, each followed by one that runs alike on related values. -/
theorem bind (h : x.Alike R y) {f : α → Except ε α'} {g : β → Except ε β'}
    (next : ∀ a b, x = .ok a → R a b → (f a).Alike S (g b)) : (x >>= f).Alike S (y >>= g) := by
  cases h with
  | error e => exact .error e
  | ok hab => exact next _ _ rfl hab

/-- Steps that run alike in one sense do so in another one. -/
theorem imp {S : α → β → Prop} (h : x.Alike R y) (imp : ∀ a b, x = .ok a → R a b → S a b) :
    x.Alike S y := by
  cases h with
  | error e => exact .error e
  | ok hab => exact .ok (imp _ _ rfl hab)

/-- Functions applied to the results of steps that run alike. -/
theorem map (h : x.Alike R y) {f : α → α'} {g : β → β'}
    (related : ∀ a b, R a b → S (f a) (g b)) : (x.map f).Alike S (y.map g) := by
  cases h with
  | error e => exact .error e
  | ok hab => exact .ok (related _ _ hab)

/-- Steps that run alike have the same fault. -/
theorem fault?_eq (h : x.Alike R y) : x.fault? = y.fault? := by
  cases h <;> rfl

/-- Steps with the same fault run alike. -/
theorem of_fault?_eq (h : x.fault? = y.fault?) : x.Alike (fun _ _ => True) y := by
  cases x with
  | error e =>
    cases y with
    | error e' =>
      cases h
      exact .error e
    | ok b => cases h
  | ok a =>
    cases y with
    | error e' => cases h
    | ok b => exact .ok trivial

end Alike

/-! ### Reasons for a failure -/

/-- Whether a step fails exactly if there is a reason to, and then with one of the reasons. -/
structure FailsFor (x : Except ε α) (reason : ε → Prop) : Prop where
  error : ∀ e, x = .error e → reason e
  ok : ∀ a, x = .ok a → ∀ e, ¬ reason e

namespace FailsFor

variable {x : Except ε α} {P Q : ε → Prop}

/-- A step that fails exactly for some reasons does so if there is one. -/
theorem error_iff (h : x.FailsFor P) : (∃ e, x = .error e) ↔ ∃ e, P e := by
  cases x with
  | error e => exact iff_of_true ⟨e, rfl⟩ ⟨e, h.error e rfl⟩
  | ok a => exact iff_of_false nofun fun ⟨e, he⟩ => h.ok a rfl e he

/-- The same reasons in other words. -/
theorem congr (h : x.FailsFor P) (iff : ∀ e, P e ↔ Q e) : x.FailsFor Q :=
  ⟨fun e he => (iff e).mp (h.error e he), fun a ha e he => h.ok a ha e ((iff e).mpr he)⟩

/-- A step that succeeds has no reason to fail. -/
theorem of_ok {a : α} (h : ∀ e, ¬ P e) : (Except.ok a : Except ε α).FailsFor P :=
  ⟨nofun, fun _ _ => h⟩

/-- A step that fails, with one of the reasons. -/
theorem of_error {e : ε} (h : P e) : (Except.error e : Except ε α).FailsFor P := by
  refine ⟨fun e' he' => ?_, nofun⟩
  cases he'
  exact h

/-- Two steps in a row fail for the reasons of the first and for those of the second. -/
theorem bind {f : α → Except ε β} (h : x.FailsFor P)
    (next : ∀ a, x = .ok a → (f a).FailsFor Q) : (x >>= f).FailsFor fun e => P e ∨ Q e := by
  cases x with
  | error e => exact of_error (.inl (h.error e rfl))
  | ok a =>
    refine ⟨fun e he => .inr ((next a rfl).error e he), fun b hb e he => ?_⟩
    exact he.elim (h.ok a rfl e) ((next a rfl).ok b hb e)

/-- A further step that never fails does not change why the first fails. -/
theorem bind_pure {f : α → Except ε β} (h : x.FailsFor P) (next : ∀ a, ∃ b, f a = .ok b) :
    (x >>= f).FailsFor P := by
  refine (h.bind (Q := fun _ => False) fun a _ => ?_).congr fun e => by rw [or_false]
  obtain ⟨b, hb⟩ := next a
  exact hb ▸ of_ok fun _ => not_false

/-- A function applied to a result does not change why it fails. -/
theorem map (h : x.FailsFor P) (f : α → β) : (x.map f).FailsFor P := by
  cases x with
  | error e => exact of_error (h.error e rfl)
  | ok a => exact of_ok (h.ok a rfl)

/-- A step for each member of a list fails for the reasons of each of them. -/
theorem mapM {f : α → Except ε β} {reason : α → ε → Prop} {as : List α}
    (each : ∀ a ∈ as, (f a).FailsFor (reason a)) :
    (as.mapM f).FailsFor fun e => ∃ a ∈ as, reason a e := by
  induction as with
  | nil => exact of_ok fun _ => nofun
  | cons a as ih =>
    obtain ⟨ha, has⟩ := List.forall_mem_cons.mp each
    rw [List.mapM_cons]
    refine (ha.bind fun b _ => (ih has).bind fun bs _ => of_ok fun _ => not_false).congr
      fun e => ?_
    rw [List.exists_mem_cons_iff, or_false]

/-- Steps through a list fail for the reasons of each member of it, if no step changes the
reasons of later ones. -/
theorem foldlM {σ : Type} {f : σ → α → Except ε σ} {reason : σ → α → ε → Prop}
    (each : ∀ s a, (f s a).FailsFor (reason s a))
    (keeps : ∀ s a s', f s a = .ok s' → ∀ b e, reason s' b e ↔ reason s b e) (as : List α)
    (s : σ) : (as.foldlM f s).FailsFor fun e => ∃ a ∈ as, reason s a e := by
  induction as generalizing s with
  | nil => exact of_ok fun _ => nofun
  | cons a as ih =>
    rw [List.foldlM_cons]
    have hlater :
        ∀ s', f s a = .ok s' → (as.foldlM f s').FailsFor fun e => ∃ b ∈ as, reason s b e := by
      intro s' hs'
      refine (ih s').congr fun e => ?_
      simp only [keeps s a s' hs']
    refine ((each s a).bind hlater).congr fun e => ?_
    rw [List.exists_mem_cons_iff]

end FailsFor

end Except
