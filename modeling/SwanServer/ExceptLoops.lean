/-
Loops over lists whose steps may end in an error: what holds after a fold that
runs to its end, and when a fold or a conjunction does run to its end.
-/
import Mathlib

namespace ExceptLoops

universe u v w

section Bind

variable {ε α β : Type u}

theorem bind_eq_ok_iff {act : Except ε α} {next : α → Except ε β} {result : β} :
    (act >>= next) = .ok result ↔ ∃ value, act = .ok value ∧ next value = .ok result := by
  cases act with
  | error fault => simp [bind, Except.bind]
  | ok value => simp [bind, Except.bind]

end Bind

section Fold

variable {ε β : Type u} {α : Type v} {f : β → α → Except ε β}

/-- What every step keeps holds after the fold. -/
theorem foldlM_invariant {P : β → Prop} {entries : List α}
    (hstep : ∀ state, ∀ entry ∈ entries, ∀ next, P state → f state entry = .ok next → P next)
    {state final : β} (hstate : P state) (hfinal : entries.foldlM f state = .ok final) :
    P final := by
  induction entries generalizing state with
  | nil =>
      cases hfinal
      exact hstate
  | cons head tail ih =>
      rw [List.foldlM_cons, bind_eq_ok_iff] at hfinal
      obtain ⟨next, hnext, hrest⟩ := hfinal
      have hkept : P next := hstep state head List.mem_cons_self next hstate hnext
      apply ih _ hkept hrest
      exact fun state entry hentry => hstep state entry (List.mem_cons_of_mem head hentry)

/-- Where it does not depend on the state whether a step works, the fold works
exactly if all its steps do. -/
theorem exists_foldlM_iff {Works : α → Prop}
    (hworks : ∀ state entry, (∃ next, f state entry = .ok next) ↔ Works entry)
    (entries : List α) (state : β) :
    (∃ final, entries.foldlM f state = .ok final) ↔ ∀ entry ∈ entries, Works entry := by
  induction entries generalizing state with
  | nil => simp [pure, Except.pure]
  | cons head tail ih =>
      rw [List.forall_mem_cons, ← hworks state head]
      constructor
      · rintro ⟨final, hfinal⟩
        rw [List.foldlM_cons, bind_eq_ok_iff] at hfinal
        obtain ⟨next, hnext, hrest⟩ := hfinal
        exact ⟨⟨next, hnext⟩, (ih next).mp ⟨final, hrest⟩⟩
      · rintro ⟨⟨next, hnext⟩, htail⟩
        obtain ⟨final, hfinal⟩ := (ih next).mpr htail
        exact ⟨final, bind_eq_ok_iff.mpr ⟨next, hnext, hfinal⟩⟩

end Fold

section Sequence

variable {m : Type u → Type w} [Monad m] {α : Type v} {β : Type u} {γ : Type v}

theorem foldlM_congr {f g : β → α → m β} {entries : List α}
    (heq : ∀ entry ∈ entries, ∀ state, f state entry = g state entry) (state : β) :
    entries.foldlM f state = entries.foldlM g state := by
  induction entries generalizing state with
  | nil => rfl
  | cons head tail ih =>
      rw [List.forall_mem_cons] at heq
      rw [List.foldlM_cons, List.foldlM_cons, heq.1]
      congr 1
      funext next
      exact ih heq.2 next

theorem foldlM_flatMap [LawfulMonad m] (f : γ → List α) (g : β → α → m β)
    (entries : List γ) (state : β) :
    (entries.flatMap f).foldlM g state =
      entries.foldlM (fun state entry => (f entry).foldlM g state) state := by
  induction entries generalizing state with
  | nil => rfl
  | cons head tail ih =>
      rw [List.flatMap_cons, List.foldlM_append, List.foldlM_cons]
      congr 1
      funext next
      exact ih next

end Sequence

section Conjunction

variable {m : Type → Type w} [Monad m] {α : Type u} {β : Type v}

theorem allM_map (f : β → α) (p : α → m Bool) (entries : List β) :
    (entries.map f).allM p = entries.allM fun entry => p (f entry) := by
  induction entries with
  | nil => simp
  | cons head tail ih => rw [List.map_cons, List.allM_cons, List.allM_cons, ih]

theorem allM_congr {p q : α → m Bool} {entries : List α}
    (heq : ∀ entry ∈ entries, p entry = q entry) : entries.allM p = entries.allM q := by
  induction entries with
  | nil => rfl
  | cons head tail ih =>
      rw [List.forall_mem_cons] at heq
      rw [List.allM_cons, List.allM_cons, heq.1, ih heq.2]

variable [LawfulMonad m]

theorem allM_append (p : α → m Bool) (front back : List α) :
    (front ++ back).allM p =
      front.allM p >>= fun result => if result then back.allM p else pure false := by
  induction front with
  | nil => simp
  | cons head tail ih =>
      simp only [List.cons_append, List.allM_cons, ih, bind_assoc]
      congr 1
      funext result
      cases result <;> simp

theorem allM_flatMap (f : β → List α) (p : α → m Bool) (entries : List β) :
    (entries.flatMap f).allM p = entries.allM fun entry => (f entry).allM p := by
  induction entries with
  | nil => simp
  | cons head tail ih => rw [List.flatMap_cons, allM_append, ih, List.allM_cons]

theorem allM_filter (q : α → Bool) (p : α → m Bool) (entries : List α) :
    (entries.filter q).allM p =
      entries.allM fun entry => if q entry then p entry else pure true := by
  induction entries with
  | nil => simp
  | cons head tail ih =>
      rw [List.allM_cons, ← ih]
      cases hq : q head <;> simp [hq]

end Conjunction

section ExceptConjunction

variable {ε : Type} {α : Type u} {p : α → Except ε Bool} {entries : List α}

theorem allM_eq_true_iff : entries.allM p = .ok true ↔ ∀ entry ∈ entries, p entry = .ok true := by
  induction entries with
  | nil => simp [pure, Except.pure]
  | cons head tail ih =>
      rw [List.allM_cons, List.forall_mem_cons, ← ih]
      cases hhead : p head with
      | error fault => simp [bind, Except.bind]
      | ok result => cases result <;> simp [bind, Except.bind, pure, Except.pure]

/-- What holds at each place of a list holds at its head and at each place of its
tail, the head being one more entry in front. -/
theorem forall_split_cons_iff {Q : List α → α → Prop} {head : α} {tail : List α} :
    (∀ front entry rest, head :: tail = front ++ entry :: rest → Q front entry) ↔
      Q [] head ∧ ∀ front entry rest, tail = front ++ entry :: rest → Q (head :: front) entry := by
  constructor
  · intro hall
    refine ⟨hall [] head tail rfl, ?_⟩
    intro front entry rest heq
    exact hall (head :: front) entry rest (congrArg (List.cons head) heq)
  · rintro ⟨hhead, htail⟩ front entry rest heq
    rcases List.cons_eq_append_iff.mp heq with ⟨rfl, hcons⟩ | ⟨others, rfl, hothers⟩
    · obtain ⟨rfl, -⟩ := List.cons.inj hcons
      exact hhead
    · exact htail others entry rest hothers

/-- The conjunction ends without an error if each step that has one comes after
a step that is false. -/
theorem exists_allM_iff :
    (∃ result, entries.allM p = .ok result) ↔
      ∀ front entry rest, entries = front ++ entry :: rest → (∃ fault, p entry = .error fault) →
        ∃ earlier ∈ front, p earlier = .ok false := by
  induction entries with
  | nil => simp [pure, Except.pure]
  | cons head tail ih =>
      rw [List.allM_cons, forall_split_cons_iff]
      cases hhead : p head with
      | error fault => simp [bind, Except.bind]
      | ok result =>
          cases result with
          | false => simp [bind, Except.bind, pure, Except.pure, hhead]
          | true =>
              have hgo : (Except.ok true >>= fun result : Bool =>
                  if result then tail.allM p else pure false) = tail.allM p := rfl
              rw [hgo, ih]
              simp [hhead]

end ExceptConjunction

end ExceptLoops
