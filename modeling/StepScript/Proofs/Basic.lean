import Mathlib.Tactic.Common

/-!
# Results, lists from an index on and runs of characters

What the parts of the program share: results that may be errors, lists that are read from an index
on, and texts that are split where the characters of a kind end.
-/

namespace StepScript

/-! ## Results -/

theorem exists_of_bind_eq_ok {ε α β : Type} {first : Except ε α} {next : α → Except ε β} {result : β}
    (h : first >>= next = .ok result) : ∃ value, first = .ok value ∧ next value = .ok result := by
  cases first with
  | error cause => cases h
  | ok value => exact ⟨value, rfl, h⟩

theorem cases_of_bind_eq_error {ε α β : Type} {first : Except ε α} {next : α → Except ε β}
    {cause : ε} (h : first >>= next = .error cause) :
    first = .error cause ∨ ∃ value, first = .ok value ∧ next value = .error cause := by
  cases first with
  | error other =>
    cases h
    exact .inl rfl
  | ok value => exact .inr ⟨value, rfl, h⟩

/-- What holds at the start and after each item holds at the end. -/
theorem foldlM_invariant {ε α σ : Type} {P : σ → Prop} {next : σ → α → Except ε σ} {items : List α}
    {start last : σ} (h : items.foldlM next start = .ok last) (hstart : P start)
    (hnext : ∀ item ∈ items, ∀ before after, P before → next before item = .ok after → P after) :
    P last := by
  induction items generalizing start with
  | nil =>
    cases h
    exact hstart
  | cons item items ih =>
    obtain ⟨hitem, hitems⟩ := List.forall_mem_cons.1 hnext
    rw [List.foldlM_cons] at h
    obtain ⟨middle, hmiddle, h⟩ := exists_of_bind_eq_ok h
    exact ih h (hitem start middle hstart hmiddle) hitems

theorem mem_of_mapM_eq_ok {ε α β : Type} {f : α → Except ε β} {items : List α} {values : List β}
    (h : items.mapM f = .ok values) : ∀ value ∈ values, ∃ item ∈ items, f item = .ok value := by
  induction items generalizing values with
  | nil =>
    cases h
    nofun
  | cons item items ih =>
    rw [List.mapM_cons] at h
    obtain ⟨value, hvalue, h⟩ := exists_of_bind_eq_ok h
    obtain ⟨others, hothers, h⟩ := exists_of_bind_eq_ok h
    cases h
    refine List.forall_mem_cons.2 ⟨⟨item, List.mem_cons_self .., hvalue⟩, fun other hother => ?_⟩
    obtain ⟨found, hfound, hread⟩ := ih hothers other hother
    exact ⟨found, List.mem_cons_of_mem _ hfound, hread⟩

/-! ## Lists from an index on -/

section

variable {α : Type} {items inside rest : List α} {item : α} {index : Nat}

theorem getElem?_of_drop (h : items.drop index = item :: rest) : items[index]? = some item := by
  rw [← Nat.add_zero index, ← List.getElem?_drop, h]
  rfl

theorem drop_succ (h : items.drop index = item :: rest) : items.drop (index + 1) = rest := by
  rw [← List.drop_drop, h]
  rfl

theorem drop_add (h : items.drop index = inside ++ rest) :
    items.drop (index + inside.length) = rest := by
  rw [← List.drop_drop, h, List.drop_left]

end

/-! ## Runs of characters of a kind -/

section

variable {p : Char → Bool} {body rest : List Char}

theorem takeWhile_append_stop (hbody : ∀ c ∈ body, p c = true)
    (hrest : ∀ c tail, rest = c :: tail → p c = false) : (body ++ rest).takeWhile p = body := by
  rw [List.takeWhile_append_of_pos hbody]
  cases rest with
  | nil => simp
  | cons c tail => simp [hrest c tail rfl]

theorem dropWhile_append_stop (hbody : ∀ c ∈ body, p c = true)
    (hrest : ∀ c tail, rest = c :: tail → p c = false) : (body ++ rest).dropWhile p = rest := by
  rw [List.dropWhile_append_of_pos hbody]
  cases rest with
  | nil => rfl
  | cons c tail => simp [hrest c tail rfl]

theorem forall_mem_takeWhile (text : List Char) : ∀ c ∈ text.takeWhile p, p c = true := by
  intro c hc
  exact List.all_eq_true.1 List.all_takeWhile c hc

end

end StepScript
