/-!
# The first least element of a list

`least? before` picks the element that no other one is before; of several such it picks the first.
-/
namespace ValueMesh

variable {α : Type}

def least? (before : α → α → Bool) : List α → Option α
  | [] => none
  | a :: as =>
    match least? before as with
    | none => some a
    | some b => if before b a then some b else some a

theorem least?_eq_none_iff {before : α → α → Bool} : ∀ {l : List α}, least? before l = none ↔ l = []
  | [] => by simp [least?]
  | a :: as => by
    unfold least?
    split
    · simp
    · split <;> simp

theorem mem_of_least? {before : α → α → Bool} {a : α} : ∀ {l : List α}, least? before l = some a → a ∈ l
  | [], h => by simp [least?] at h
  | b :: bs, h => by
    unfold least? at h
    split at h
    · simp_all
    · rename_i c hc
      split at h
      · simp only [Option.some.injEq] at h
        exact List.mem_cons_of_mem _ (mem_of_least? (h ▸ hc))
      · simp_all

/-- Nothing in the list is before the least element, if `before` compares keys of a linear order strictly. -/
theorem not_before_least? {before : α → α → Bool} (irrefl : ∀ a, before a a = false)
    (trans : ∀ {a b c}, before a b = false → before b c = false → before a c = false)
    (asymm : ∀ {a b}, before a b = true → before b a = false) {a : α} :
    ∀ {l : List α}, least? before l = some a → ∀ b ∈ l, before b a = false
  | [], h => by simp [least?] at h
  | c :: cs, h => by
    intro b hb
    unfold least? at h
    split at h
    · rename_i hn
      rw [least?_eq_none_iff.1 hn] at hb
      simp_all
    · rename_i d hd
      have ih := not_before_least? irrefl trans asymm hd
      split at h
      · rename_i hdc
        simp only [Option.some.injEq] at h
        subst h
        rcases List.mem_cons.1 hb with rfl | hb
        · exact asymm hdc
        · exact ih b hb
      · rename_i hdc
        simp only [Option.some.injEq] at h
        subst h
        rcases List.mem_cons.1 hb with rfl | hb
        · exact irrefl b
        · exact trans (ih b hb) (by simpa using hdc)

end ValueMesh
