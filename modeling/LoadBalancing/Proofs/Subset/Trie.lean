/-
Seen from outside, a trie is a map from tuples.

What is put at one tuple is found there, and nothing else changes, neither on the way
to it nor beyond (`get?_insert`). A visit that replaces all that is held replaces it in
place: the same tuples hold something afterwards (`get?_mapAccum`).
-/
import LoadBalancing.Subset.Trie

set_option autoImplicit false

namespace LoadBalancing

namespace Trie

variable {σ : Type}

/-! ## Reading -/

theorem get?_cons (t : Trie σ) (pair : String × Value) (rest : Tuple) :
    t.get? (pair :: rest) = (t.child? pair).bind fun c => c.get? rest := by
  rw [get?, find?]
  cases t.child? pair <;> rfl

@[simp] theorem get?_empty (tuple : Tuple) : (empty : Trie σ).get? tuple = none := by
  cases tuple with
  | nil => rfl
  | cons pair rest => rw [get?_cons]; rfl

/-! ## Changing what is held at a tuple -/

theorem lookup_alterChild (pair p : String × Value) (f : Trie σ → Trie σ)
    (children : List ((String × Value) × Trie σ)) :
    (alterChild pair f children).lookup p =
      if p = pair then some (f ((children.lookup pair).getD empty)) else children.lookup p := by
  induction children with
  | nil =>
    rw [alterChild]
    by_cases h : p = pair
    · subst h
      simp
    · rw [if_neg h, List.lookup_cons, beq_false_of_ne h]
  | cons head rest ih =>
    obtain ⟨q, c⟩ := head
    rw [alterChild]
    by_cases hq : q = pair
    · subst hq
      rw [if_pos rfl]
      by_cases h : p = q
      · subst h
        simp
      · rw [if_neg h, List.lookup_cons, List.lookup_cons, beq_false_of_ne h]
    · -- the child in question, if there is one, is further down the list
      rw [if_neg hq, List.lookup_cons, List.lookup_cons, List.lookup_cons, ih,
        beq_false_of_ne (Ne.symm hq)]
      by_cases h : p = q
      · subst h
        simp [hq]
      · rw [beq_false_of_ne h]

/-- A change at one tuple is a change at that tuple alone. The induction is on the path,
for all tries at once: one step down the path is a change of one child. -/
theorem get?_alter (f : Option σ → Option σ) (t : Trie σ) (tuple other : Tuple) :
    (t.alter f tuple).get? other = if other = tuple then f (t.get? tuple) else t.get? other := by
  induction tuple generalizing t other with
  | nil =>
    cases t with
    | node held children =>
      rw [alter]
      cases other with
      | nil => rfl
      | cons pair rest => rw [if_neg (List.cons_ne_nil _ _)]; rfl
  | cons pair rest ih =>
    cases t with
    | node held children =>
      rw [alter]
      cases other with
      | nil => rw [if_neg (List.cons_ne_nil _ _).symm]; rfl
      | cons p others =>
        rw [get?_cons, get?_cons, get?_cons, child?, Trie.children, lookup_alterChild]
        by_cases hp : p = pair
        · subst hp
          rw [if_pos rfl, Option.bind_some, ih]
          -- a child that was missing is empty, and nothing is found below either
          have hbelow (path : Tuple) :
              ((children.lookup p).getD empty).get? path =
                (child? (.node held children) p).bind fun c => c.get? path := by
            rw [child?, Trie.children]
            cases children.lookup p with
            | none => exact get?_empty path
            | some c => rfl
          rw [hbelow, hbelow]
          by_cases h : others = rest
          · rw [if_pos h, if_pos (by rw [h])]
          · rw [if_neg h, if_neg fun heq => h (List.tail_eq_of_cons_eq heq)]
        · rw [if_neg hp, if_neg fun heq => hp (List.head_eq_of_cons_eq heq)]
          rfl

/-- What is put at a tuple is found there, and everything else is found as before. -/
theorem get?_insert (t : Trie σ) (tuple other : Tuple) (s : σ) :
    (t.insert tuple s).get? other = if other = tuple then some s else t.get? other := by
  rw [insert, get?_alter]

/-! ## Replacing all that is held -/

section MapAccum

variable {τ : Type} (f : τ → σ → σ × τ)

/-- What is held somewhere after a visit comes from what was held there before, in some
state that the visit had on its way. -/
def Visited (before after : Option σ) : Prop :=
  (before = none ∧ after = none) ∨ ∃ x s, before = some x ∧ after = some (f s x).1

theorem lookup_mapAccumChildren (children : List ((String × Value) × Trie σ)) (s : τ)
    (p : String × Value) :
    (children.lookup p = none ∧ (mapAccumChildren f s children).1.lookup p = none) ∨
      ∃ c s', children.lookup p = some c ∧
        (mapAccumChildren f s children).1.lookup p = some (mapAccum f s' c).1 := by
  induction children generalizing s with
  | nil => exact .inl ⟨rfl, rfl⟩
  | cons head rest ih =>
    obtain ⟨q, c⟩ := head
    rw [mapAccumChildren]
    dsimp only
    rw [List.lookup_cons, List.lookup_cons]
    cases p == q with
    | true => exact .inr ⟨c, s, rfl, rfl⟩
    | false => exact ih _

/-- A visit goes to every tuple, and changes what is held there in place. -/
theorem get?_mapAccum (tuple : Tuple) (t : Trie σ) (s : τ) :
    Visited f (t.get? tuple) ((mapAccum f s t).1.get? tuple) := by
  induction tuple generalizing t s with
  | nil =>
    cases t with
    | node held children =>
      cases held with
      | none => exact .inl ⟨rfl, rfl⟩
      | some x => exact .inr ⟨x, s, rfl, rfl⟩
  | cons pair rest ih =>
    -- what is held here has no part in what is found below
    have below (held held' : Option σ) (children : List ((String × Value) × Trie σ)) (s : τ) :
        Visited f ((node held children).get? (pair :: rest))
          ((node held' (mapAccumChildren f s children).1).get? (pair :: rest)) := by
      rw [get?_cons, get?_cons, child?, child?, Trie.children, Trie.children]
      rcases lookup_mapAccumChildren f children s pair with ⟨hc, hc'⟩ | ⟨c, s', hc, hc'⟩
      · rw [hc, hc']
        exact .inl ⟨rfl, rfl⟩
      · rw [hc, hc', Option.bind_some, Option.bind_some]
        exact ih c s'
    cases t with
    | node held children =>
      cases held with
      | none => exact below _ _ children s
      | some x => exact below _ _ children _

end MapAccum

end Trie

end LoadBalancing
