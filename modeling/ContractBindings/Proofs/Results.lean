import Mathlib.Data.List.Forall2

/-!
# Results that are values

How a computation that may fail is opened once it is known to have succeeded: step by step at its
binds, and element by element where it goes through a list. An error that no step ends with is not
the error of the whole either (`Avoids`).

A computation that checks one thing after the other ends with the first of all the faults that there
are. `Reports faults x` says so of a result and a list that is written down without stopping
anywhere, so that what comes first is read off the list. Of two computations that are to come to the
same, `Matches` follows both at once.
-/

namespace ContractBindings

variable {ε α β : Type}

/-- A sequence succeeds when its first part gives a value from which the second succeeds. -/
theorem exists_of_bind_eq_ok {x : Except ε α} {f : α → Except ε β} {b : β}
    (h : x >>= f = .ok b) : ∃ a, x = .ok a ∧ f a = .ok b := by
  cases x with
  | error e => cases h
  | ok a => exact ⟨a, rfl, h⟩

/-- A sequence fails where its first part does, or in the second. -/
theorem error_or_exists_of_bind_eq_error {x : Except ε α} {f : α → Except ε β} {e : ε}
    (h : x >>= f = .error e) : x = .error e ∨ ∃ a, x = .ok a ∧ f a = .error e := by
  cases x with
  | error other =>
    cases h
    exact .inl rfl
  | ok a => exact .inr ⟨a, rfl, h⟩

theorem ok_of_mapError_eq_ok {ε' : Type} {x : Except ε α} {f : ε → ε'} {a : α}
    (h : x.mapError f = .ok a) : x = .ok a := by
  cases x with
  | error e => cases h
  | ok b => cases h; rfl

/-- A list is gone through successfully when each of its elements is. -/
theorem forall₂_of_mapM_eq_ok {f : α → Except ε β} {l : List α} {out : List β}
    (h : l.mapM f = .ok out) : List.Forall₂ (fun a b ↦ f a = .ok b) l out := by
  induction l generalizing out with
  | nil =>
    cases h
    exact .nil
  | cons a rest ih =>
    rw [List.mapM_cons] at h
    obtain ⟨b, hb, h⟩ := exists_of_bind_eq_ok h
    obtain ⟨bs, hbs, h⟩ := exists_of_bind_eq_ok h
    cases h
    exact .cons hb (ih hbs)

/-- Lists correspond when what they are mapped to does, element by element. -/
theorem map_eq_map_of_forall₂ {γ : Type} {f : α → γ} {g : β → γ} {as : List α} {bs : List β}
    (h : List.Forall₂ (fun a b ↦ f a = g b) as bs) : as.map f = bs.map g := by
  induction h with
  | nil => rfl
  | cons hab _ ih => rw [List.map_cons, List.map_cons, hab, ih]

theorem eq_map_of_forall₂ {g : α → β} {as : List α} {bs : List β}
    (h : List.Forall₂ (fun a b ↦ b = g a) as bs) : bs = as.map g := by
  rw [map_eq_map_of_forall₂ (h.imp fun a b hab ↦ show g a = id b from hab.symm), List.map_id]

/-- If every success is the value of one function, so is that of the list. -/
theorem eq_map_of_mapM_eq_ok {f : α → Except ε β} {g : α → β} {l : List α} {out : List β}
    (hfg : ∀ a b, f a = .ok b → b = g a) (h : l.mapM f = .ok out) : out = l.map g :=
  eq_map_of_forall₂ ((forall₂_of_mapM_eq_ok h).imp hfg)

/-- What corresponds through a list in the middle corresponds. -/
theorem forall₂_comp {γ : Type} {r : α → β → Prop} {s : β → γ → Prop} {t : α → γ → Prop}
    (hcomp : ∀ a b c, r a b → s b c → t a c) {as : List α} {bs : List β} {cs : List γ}
    (hr : List.Forall₂ r as bs) (hs : List.Forall₂ s bs cs) : List.Forall₂ t as cs := by
  induction hr generalizing cs with
  | nil =>
    cases hs
    exact .nil
  | cons hab _ ih =>
    cases hs with
    | cons hbc hs => exact .cons (hcomp _ _ _ hab hbc) (ih hs)

/-! ### Errors that do not come up -/

/-- A result that is not a certain error. -/
def Avoids (error : ε) (x : Except ε α) : Prop :=
  x ≠ .error error

section Avoids

variable {error : ε} {x : Except ε α} {f : α → Except ε β}

theorem avoids_ok (a : α) : Avoids error (.ok a) :=
  nofun

theorem avoids_error {other : ε} (h : other ≠ error) : Avoids error (.error other : Except ε α) :=
  fun heq ↦ h (Except.error.inj heq)

theorem Avoids.bind (hx : Avoids error x) (hf : ∀ a, x = .ok a → Avoids error (f a)) :
    Avoids error (x >>= f) := by
  rcases x with other | a
  · exact fun heq ↦ hx (congrArg _ (Except.error.inj heq))
  · exact hf a rfl

theorem avoids_mapError {ε' : Type} {x : Except ε' α} {g : ε' → ε} (hg : ∀ e, g e ≠ error) :
    Avoids error (x.mapError g) := by
  rcases x with e | a
  · exact avoids_error (hg e)
  · exact avoids_ok a

theorem Avoids.mapM (hf : ∀ a, Avoids error (f a)) (l : List α) : Avoids error (l.mapM f) := by
  induction l with
  | nil => exact avoids_ok []
  | cons a l ih =>
    rw [List.mapM_cons]
    exact (hf a).bind fun b _ ↦ ih.bind fun bs _ ↦ avoids_ok (b :: bs)

end Avoids

/-! ### The first of several faults -/

/-- A result that is the first of the faults, or a value if there are none. -/
def Reports (faults : List ε) (x : Except ε α) : Prop :=
  ∀ e, x = .error e ↔ faults.head? = some e

section Reports

variable {faults later : List ε} {x : Except ε α} {f : α → Except ε β}

theorem reports_ok (a : α) : Reports [] (.ok a : Except ε α) :=
  fun _ ↦ iff_of_false nofun nofun

theorem reports_error (e : ε) (later : List ε) : Reports (e :: later) (.error e : Except ε α) := by
  intro other
  rw [Except.error.injEq, List.head?_cons, Option.some.injEq]

theorem Reports.exists_ok_iff (h : Reports faults x) : (∃ a, x = .ok a) ↔ faults = [] := by
  cases faults with
  | nil =>
    rcases x with e | a
    · exact absurd ((h e).1 rfl) nofun
    · exact iff_of_true ⟨a, rfl⟩ rfl
  | cons e later =>
    rw [(h e).2 rfl]
    exact iff_of_false nofun (List.cons_ne_nil e later)

/-- The faults of a sequence are those of its parts: what the second part has to report counts as
soon as the first has nothing. -/
theorem Reports.bind (hx : Reports faults x) (hf : ∀ a, x = .ok a → Reports later (f a)) :
    Reports (faults ++ later) (x >>= f) := by
  cases faults with
  | nil =>
    obtain ⟨a, rfl⟩ := hx.exists_ok_iff.2 rfl
    exact hf a rfl
  | cons e rest =>
    rw [(hx e).2 rfl]
    exact reports_error e (rest ++ later)

/-- What is made of a value has no faults of its own. -/
theorem Reports.bind_ok (h : Reports faults x) (g : α → β) :
    Reports faults (x >>= fun a ↦ .ok (g a)) := by
  rw [← List.append_nil faults]
  exact h.bind fun a _ ↦ reports_ok (g a)

theorem Reports.mapM {faults : α → List ε} (hf : ∀ a, Reports (faults a) (f a)) (l : List α) :
    Reports (l.flatMap faults) (l.mapM f) := by
  induction l with
  | nil => exact reports_ok []
  | cons a l ih =>
    rw [List.mapM_cons, List.flatMap_cons]
    exact (hf a).bind fun b _ ↦ ih.bind_ok (b :: ·)

theorem flatMap_fst_zip {γ : Type} (f : α → List β) {l : List α} {cs : List γ}
    (h : cs.length = l.length) : (l.zip cs).flatMap (fun p ↦ f p.1) = l.flatMap f := by
  rw [← List.flatMap_map, List.map_fst_zip (Nat.le_of_eq h.symm)]

/-- What is paired with the elements of a list has no part in the faults of going through it. -/
theorem Reports.mapM_zip {γ : Type} {faults : α → List ε} {f : α × γ → Except ε β}
    (hf : ∀ a c, Reports (faults a) (f (a, c))) {l : List α} {cs : List γ}
    (hlength : cs.length = l.length) : Reports (l.flatMap faults) ((l.zip cs).mapM f) := by
  rw [← flatMap_fst_zip faults hlength]
  exact .mapM (fun p ↦ hf p.1 p.2) (l.zip cs)

/-- A fault that is there on a condition. -/
def faultIf (condition : Prop) [Decidable condition] (fault : ε) : List ε :=
  if condition then [fault] else []

theorem faultIf_eq_nil_iff {condition : Prop} [Decidable condition] {fault : ε} :
    faultIf condition fault = [] ↔ ¬ condition := by
  rw [faultIf, ite_eq_right_iff]
  exact ⟨fun h hc ↦ List.cons_ne_nil _ _ (h hc), fun h hc ↦ absurd hc h⟩

/-- A condition that is checked first has its fault in front of all others. -/
theorem reports_faultIf {condition : Prop} [Decidable condition] (fault : ε)
    (h : Reports later x) :
    Reports (faultIf condition fault ++ later) (if condition then .error fault else x) := by
  rw [faultIf]
  split
  · exact reports_error fault later
  · exact h

end Reports

/-! ### Two computations of the same -/

/-- Two results that match: the same error twice, or related values. An error of the first that is
excused leaves the second open. -/
inductive Matches (excused : ε → Prop) (r : α → β → Prop) : Except ε α → Except ε β → Prop where
  | error (e : ε) : Matches excused r (.error e) (.error e)
  | ok {a : α} {b : β} (h : r a b) : Matches excused r (.ok a) (.ok b)
  | excused {e : ε} (h : excused e) (y : Except ε β) : Matches excused r (.error e) y

namespace Matches

variable {γ δ : Type} {excused : ε → Prop} {r : α → β → Prop} {s : γ → δ → Prop}
  {x : Except ε α} {y : Except ε β} {f : α → Except ε γ} {g : β → Except ε δ}

theorem of_eq (x : Except ε α) : Matches excused Eq x x := by
  rcases x with e | a
  · exact .error e
  · exact .ok rfl

/-- Without excuses, results with equal values are equal. -/
theorem eq {x y : Except ε α} (h : Matches (fun _ ↦ False) Eq x y) : x = y := by
  cases h with
  | error e => rfl
  | ok h => rw [h]
  | excused h => exact h.elim

/-- What is made of a value is not open. -/
theorem eq_ok {x y : Except ε α} {a : α} (h : Matches excused Eq x y) (hx : x = .ok a) :
    y = .ok a := by
  subst hx
  cases h with
  | ok h => rw [h]

theorem mono {r' : α → β → Prop} (h : Matches excused r x y) (hr : ∀ a b, r a b → r' a b) :
    Matches excused r' x y := by
  cases h with
  | error e => exact .error e
  | ok h => exact .ok (hr _ _ h)
  | excused h => exact .excused h y

theorem bind (hxy : Matches excused r x y) (hfg : ∀ a b, r a b → Matches excused s (f a) (g b)) :
    Matches excused s (x >>= f) (y >>= g) := by
  cases hxy with
  | error e => exact .error e
  | ok h => exact hfg _ _ h
  | excused h => exact .excused h _

theorem mapM {f : α → Except ε γ} {g : α → Except ε δ} (h : ∀ a, Matches excused s (f a) (g a))
    (l : List α) : Matches excused (List.Forall₂ s) (l.mapM f) (l.mapM g) := by
  induction l with
  | nil => exact .ok .nil
  | cons a l ih =>
    rw [List.mapM_cons, List.mapM_cons]
    exact (h a).bind fun c d hcd ↦ ih.bind fun cs ds hcds ↦ .ok (.cons hcd hcds)

theorem mapM_eq {f g : α → Except ε β} (h : ∀ a, Matches excused Eq (f a) (g a)) (l : List α) :
    Matches excused Eq (l.mapM f) (l.mapM g) :=
  (mapM h l).mono fun bs bs' hbs ↦ by rwa [List.forall₂_eq_eq_eq] at hbs

theorem mapError {ε' : Type} {x : Except ε' α} {y : Except ε' β} (e : ε' → ε)
    (h : Matches (fun _ ↦ False) r x y) : Matches excused r (x.mapError e) (y.mapError e) := by
  cases h with
  | error _ => exact .error _
  | ok h => exact .ok h
  | excused h => exact h.elim

end Matches

end ContractBindings
