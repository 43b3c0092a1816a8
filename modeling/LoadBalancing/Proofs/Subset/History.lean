/-
What a trie holds after a history of edits.

An edit creates the path of a tuple, and may put something at the node it leads to. Tuples share
nodes, as one may begin with another or with the same pairs, and still an edit is seen at its own
tuple only. So at each tuple there is what was put there last, whatever happened at other tuples
(`Trie.run_holds`). The same is said of changing what is found, and of visits.
-/
import LoadBalancing.Proofs.Subset.Entries
import Mathlib.Data.List.Induction

set_option autoImplicit false

namespace LoadBalancing

namespace Trie

variable {σ : Type}

/-! ## Nodes -/

theorem find?_cons (t : Trie σ) (pair : String × Value) (rest : Tuple) :
    t.find? (pair :: rest) = (t.child? pair).bind fun c => c.find? rest :=
  rfl

theorem find?_empty_isSome {tuple : Tuple} :
    ((empty : Trie σ).find? tuple).isSome ↔ tuple = [] := by
  cases tuple with
  | nil => exact iff_of_true rfl rfl
  | cons pair rest => exact iff_of_false Bool.false_ne_true (List.cons_ne_nil _ _)

/-- A change at a tuple adds the nodes on the way to it. The induction is on the path, for all
tries at once. -/
theorem find?_alter_isSome {f : Option σ → Option σ} {t : Trie σ} {tuple other : Tuple} :
    ((t.alter f tuple).find? other).isSome ↔ other <+: tuple ∨ (t.find? other).isSome := by
  induction tuple generalizing t other with
  | nil =>
    cases t with
    | node held children =>
      rw [alter, List.prefix_nil]
      cases other with
      | nil => exact iff_of_true rfl (.inl rfl)
      | cons p others => exact (or_iff_right (List.cons_ne_nil _ _)).symm
  | cons pair rest ih =>
    cases t with
    | node held children =>
      rw [alter]
      cases other with
      | nil => exact iff_of_true rfl (.inl List.nil_prefix)
      | cons p others =>
        rw [find?_cons, find?_cons, child?, child?, Trie.children, Trie.children,
          lookup_alterChild, List.cons_prefix_cons]
        by_cases hp : p = pair
        · subst hp
          rw [if_pos rfl, Option.bind_some, ih, and_iff_right rfl]
          cases children.lookup p with
          | some c => rfl
          | none =>
            -- the child that is there now is empty, and only the shortest path leads on from it
            rw [Option.getD_none, find?_empty_isSome, Option.bind_none,
              or_iff_left_of_imp fun h => h ▸ List.nil_prefix]
            exact (or_iff_left Bool.false_ne_true).symm
        · rw [if_neg hp, or_iff_right fun h => hp h.1]

/-! ## Changes of what is found -/

/-- The child that is changed is the one that is found, and no other child changes. -/
theorem modifyChild?_cases (pair : String × Value) (f : Trie σ → Option (Trie σ))
    (children : List ((String × Value) × Trie σ)) :
    (modifyChild? pair f children = none ∧ (children.lookup pair).bind f = none) ∨
      ∃ changed c, modifyChild? pair f children = some changed ∧
        (children.lookup pair).bind f = some c ∧
        ∀ p, changed.lookup p = if p = pair then some c else children.lookup p := by
  induction children with
  | nil => exact .inl ⟨rfl, rfl⟩
  | cons child rest ih =>
    obtain ⟨q, d⟩ := child
    rw [modifyChild?, List.lookup_cons]
    -- the first child under the pair is the one; those before it are passed over
    by_cases hq : q = pair
    · subst hq
      rw [if_pos rfl, beq_self_eq_true]
      cases hd : f d with
      | none => exact .inl ⟨rfl, hd⟩
      | some c =>
        refine .inr ⟨_, c, rfl, hd, fun p => ?_⟩
        rw [List.lookup_cons, List.lookup_cons]
        by_cases hp : p = q
        · rw [if_pos hp, hp, beq_self_eq_true]
        · rw [if_neg hp, beq_false_of_ne hp]
    · rw [if_neg hq, beq_false_of_ne (Ne.symm hq)]
      rcases ih with ⟨hnone, hlookup⟩ | ⟨changed, c, hchanged, hlookup, hothers⟩
      · exact .inl ⟨by rw [hnone]; rfl, hlookup⟩
      · refine .inr ⟨(q, d) :: changed, c, by rw [hchanged]; rfl, hlookup, fun p => ?_⟩
        rw [List.lookup_cons, List.lookup_cons, hothers]
        by_cases hp : p = q
        · subst hp
          rw [beq_self_eq_true]
          exact (if_neg hq).symm
        · rw [beq_false_of_ne hp]

/-- **What can be changed is what is found**, and what is held at tuples that do not go on from
there stays as it is. -/
theorem modify?_cases (g : Trie σ → Trie σ) (tuple : Tuple) (t : Trie σ) :
    (t.modify? g tuple = none ∧ t.find? tuple = none) ∨
      ∃ changed n, t.modify? g tuple = some changed ∧ t.find? tuple = some n ∧
        changed.find? tuple = some (g n) ∧
        ∀ other, ¬ tuple <+: other → changed.get? other = t.get? other := by
  induction tuple generalizing t with
  | nil => exact .inr ⟨g t, t, by rw [modify?], rfl, rfl, fun other h => absurd List.nil_prefix h⟩
  | cons pair rest ih =>
    cases t with
    | node held children =>
      have hfind (held : Option σ) (children : List ((String × Value) × Trie σ)) :
          (node held children).find? (pair :: rest) =
            (children.lookup pair).bind fun c => c.find? rest := rfl
      rw [modify?, hfind]
      -- the child is looked up first, and then changed from there on
      rcases modifyChild?_cases pair (modify? g rest) children with
        ⟨hnone, hbind⟩ | ⟨changed, c', hchanged, hbind, hothers⟩
      · refine .inl ⟨by rw [hnone]; rfl, ?_⟩
        cases hc : children.lookup pair with
        | none => rfl
        | some c =>
          rw [hc] at hbind
          rcases ih c with ⟨-, hlost⟩ | ⟨_, _, hfound, -⟩
          · exact hlost
          · cases hbind.symm.trans hfound
      · obtain ⟨c, hc, hmodify⟩ := Option.bind_eq_some_iff.1 hbind
        rcases ih c with ⟨hnone, -⟩ | ⟨c'', n, hmodify', hn, hat, hrest⟩
        · cases hmodify.symm.trans hnone
        · obtain rfl : c' = c'' := Option.some.inj (hmodify.symm.trans hmodify')
          refine .inr ⟨node held changed, n, by rw [hchanged]; rfl, by rw [hc]; exact hn, ?_,
            fun other hother => ?_⟩
          · -- below the changed child the induction speaks; its siblings did not change
            rw [hfind, hothers, if_pos rfl]
            exact hat
          · cases other with
            | nil => rfl
            | cons p others =>
              rw [get?_cons, get?_cons, child?, child?, Trie.children, Trie.children, hothers]
              by_cases hp : p = pair
              · subst hp
                rw [if_pos rfl, hc]
                exact hrest others fun h => hother (List.cons_prefix_cons.2 ⟨rfl, h⟩)
              · rw [if_neg hp]

/-- Changes what a node holds, and nothing further on. -/
def changeHeld (f : Option σ → Option σ) : Trie σ → Trie σ
  | node held children => node (f held) children

/-- If the path leads there, to change what the node holds that is found is to change what is held
at the tuple. -/
theorem modify?_changeHeld (f : Option σ → Option σ) (tuple : Tuple) (t : Trie σ) :
    t.modify? (changeHeld f) tuple = (t.find? tuple).map fun _ => t.alter f tuple := by
  induction tuple generalizing t with
  | nil =>
    cases t with
    | node held children => rfl
  | cons pair rest ih =>
    cases t with
    | node held children =>
      -- the children are searched one by one, for which the induction over the tuple is not enough
      have below : modifyChild? pair (modify? (changeHeld f) rest) children =
          ((children.lookup pair).bind fun c => c.find? rest).map fun _ =>
            alterChild pair (alter f rest) children := by
        induction children with
        | nil => rfl
        | cons child others ihc =>
          obtain ⟨q, d⟩ := child
          rw [modifyChild?, alterChild, List.lookup_cons]
          by_cases hq : q = pair
          · subst hq
            rw [if_pos rfl, if_pos rfl, beq_self_eq_true, ih, Option.map_map]
            rfl
          · rw [if_neg hq, if_neg hq, beq_false_of_ne (Ne.symm hq), ihc, Option.map_map]
            rfl
      rw [modify?, below, Option.map_map]
      rfl

theorem alterChild_alterChild (pair : String × Value) (f g : Trie σ → Trie σ)
    (children : List ((String × Value) × Trie σ)) :
    alterChild pair g (alterChild pair f children) = alterChild pair (g ∘ f) children := by
  induction children with
  | nil => simp [alterChild]
  | cons child rest ih =>
    obtain ⟨q, c⟩ := child
    rw [alterChild, alterChild]
    split
    next hq => rw [alterChild, if_pos hq]; rfl
    next hq => rw [alterChild, if_neg hq, ih]

theorem alter_alter (f g : Option σ → Option σ) (tuple : Tuple) (t : Trie σ) :
    (t.alter f tuple).alter g tuple = t.alter (g ∘ f) tuple := by
  induction tuple generalizing t with
  | nil =>
    cases t with
    | node held children => rfl
  | cons pair rest ih =>
    cases t with
    | node held children =>
      have below : alter g rest ∘ alter f rest = alter (g ∘ f) rest := funext ih
      rw [alter, alter, alter, alterChild_alterChild, below]

/-- A path that was created leads to a node. -/
theorem exists_find?_create (t : Trie σ) (tuple : Tuple) :
    ∃ n, (t.create tuple).find? tuple = some n :=
  Option.isSome_iff_exists.1 (find?_alter_isSome.2 (.inl List.prefix_rfl))

/-- To put something at a tuple is to create the path and to put it at the node it leads to. -/
theorem modify?_create (t : Trie σ) (tuple : Tuple) (s : σ) :
    (t.create tuple).modify? (changeHeld fun _ => some s) tuple = some (t.insert tuple s) := by
  obtain ⟨n, hn⟩ := exists_find?_create t tuple
  rw [modify?_changeHeld, hn, create, alter_alter]
  rfl

/-! ## Visits -/

section Visits

variable {τ : Type} (f : τ → σ → σ × τ)

/-- Replaces the values of a list one after the other, carrying a state along. -/
def replaceAll : τ → List (Tuple × σ) → List (Tuple × σ) × τ
  | s, [] => ([], s)
  | s, e :: rest =>
    let (others, s') := replaceAll (f s e.2).2 rest
    ((e.1, (f s e.2).1) :: others, s')

theorem replaceAll_append (s : τ) (l l' : List (Tuple × σ)) :
    replaceAll f s (l ++ l') =
      ((replaceAll f s l).1 ++ (replaceAll f (replaceAll f s l).2 l').1,
        (replaceAll f (replaceAll f s l).2 l').2) := by
  induction l generalizing s with
  | nil => rfl
  | cons e rest ih => rw [List.cons_append, replaceAll, ih]; rfl

/-- Which tuples the values belong to makes no difference. -/
theorem replaceAll_map (g : Tuple → Tuple) (s : τ) (l : List (Tuple × σ)) :
    replaceAll f s (l.map fun e => (g e.1, e.2)) =
      ((replaceAll f s l).1.map (fun e => (g e.1, e.2)), (replaceAll f s l).2) := by
  induction l generalizing s with
  | nil => rfl
  | cons e rest ih => rw [List.map_cons, replaceAll, ih]; rfl

mutual

/-- **A visit replaces the entries one after the other, each once and in its place.** -/
theorem entries_mapAccum : ∀ (t : Trie σ) (s : τ),
    replaceAll f s t.entries = ((mapAccum f s t).1.entries, (mapAccum f s t).2)
  | .node none children, s => entries_mapAccumChildren children s
  | .node (some x) children, s => by
    have below := entries_mapAccumChildren children (f s x).2
    rw [entries, mapAccum]
    exact congrArg (fun r => (([], (f s x).1) :: r.1, r.2)) below

theorem entries_mapAccumChildren : ∀ (children : List ((String × Value) × Trie σ)) (s : τ),
    replaceAll f s (entriesOfChildren children) =
      (entriesOfChildren (mapAccumChildren f s children).1, (mapAccumChildren f s children).2)
  | [], s => rfl
  | (pair, c) :: rest, s => by
    rw [entriesOfChildren, replaceAll_append, replaceAll_map f (pair :: ·), entries_mapAccum c,
      entries_mapAccumChildren rest]
    rfl

end

end Visits

/-! ## Histories -/

/-- Creates the path of a tuple, and puts something at the node it leads to or leaves it. -/
structure Edit (σ : Type) where
  tuple : Tuple
  put : Option σ

def Edit.apply (t : Trie σ) (e : Edit σ) : Trie σ :=
  match e.put with
  | none => t.create e.tuple
  | some s => t.insert e.tuple s

/-- The trie after edits of an empty one. -/
def run (edits : List (Edit σ)) : Trie σ :=
  edits.foldl Edit.apply empty

/-- What was put last at a tuple, if anything was. -/
def lastPut (edits : List (Edit σ)) (tuple : Tuple) : Option σ :=
  edits.reverse.findSome? fun e => if e.tuple = tuple then e.put else none

section Edits

variable {edits : List (Edit σ)} {tuple : Tuple}

theorem run_concat (edits : List (Edit σ)) (e : Edit σ) :
    run (edits ++ [e]) = Edit.apply (run edits) e := by
  rw [run, List.foldl_append]
  rfl

theorem lastPut_concat (edits : List (Edit σ)) (e : Edit σ) (tuple : Tuple) :
    lastPut (edits ++ [e]) tuple =
      (if e.tuple = tuple then e.put else none).or (lastPut edits tuple) := by
  rw [lastPut, List.reverse_append, List.findSome?_append, List.reverse_singleton,
    List.findSome?_singleton, lastPut]

theorem get?_create (t : Trie σ) (tuple other : Tuple) :
    (t.create tuple).get? other = t.get? other := by
  rw [create, get?_alter]
  split
  next h => rw [h]; rfl
  · rfl

/-- An edit is a change at its tuple. -/
theorem Edit.exists_apply_eq (t : Trie σ) (e : Edit σ) :
    ∃ f, Edit.apply t e = t.alter f e.tuple ∧ ∀ held, f held = e.put.or held := by
  rw [Edit.apply]
  cases e.put with
  | none => exact ⟨id, rfl, fun _ => rfl⟩
  | some s => exact ⟨fun _ => some s, rfl, fun _ => rfl⟩

theorem get?_run (edits : List (Edit σ)) (tuple : Tuple) :
    (run edits).get? tuple = lastPut edits tuple := by
  induction edits using List.reverseRecOn with
  | nil => exact get?_empty tuple
  | append_singleton edits e ih =>
    obtain ⟨f, happly, hf⟩ := Edit.exists_apply_eq (run edits) e
    rw [run_concat, lastPut_concat, happly, get?_alter, hf, ih]
    by_cases h : tuple = e.tuple
    · rw [if_pos h, if_pos h.symm, ← h, ih]
    · rw [if_neg h, if_neg (Ne.symm h), Option.none_or]

theorem find?_run_isSome : ((run edits).find? tuple).isSome ↔
    tuple = [] ∨ ∃ e ∈ edits, tuple <+: e.tuple := by
  induction edits using List.reverseRecOn with
  | nil => simpa [run] using find?_empty_isSome
  | append_singleton edits e ih =>
    obtain ⟨f, happly, -⟩ := Edit.exists_apply_eq (run edits) e
    rw [run_concat, happly, find?_alter_isSome, ih]
    simp only [List.mem_append, List.mem_singleton, or_and_right, exists_or, exists_eq_left]
    rw [or_comm, or_assoc]

theorem unambiguous_run (edits : List (Edit σ)) : (run edits).Unambiguous := by
  induction edits using List.reverseRecOn with
  | nil => exact unambiguous_empty
  | append_singleton edits e ih =>
    obtain ⟨f, happly, -⟩ := Edit.exists_apply_eq (run edits) e
    rw [run_concat, happly]
    exact ih.alter f e.tuple

/-- What a trie is to those who use it, after a history of edits. -/
structure Holds (t : Trie σ) (edits : List (Edit σ)) : Prop where
  /-- A look-up finds a node where an edit went through, -/
  found_iff : ∀ tuple, (t.find? tuple).isSome ↔ tuple = [] ∨ ∃ e ∈ edits, tuple <+: e.tuple
  /-- and the node holds what was put last at exactly this tuple. -/
  held : ∀ tuple n, t.find? tuple = some n → n.held = lastPut edits tuple
  /-- To change a node is to change the one that is found, and nothing that is held elsewhere. -/
  changed : ∀ g tuple, (t.modify? g tuple = none ∧ t.find? tuple = none) ∨
    ∃ t' n, t.modify? g tuple = some t' ∧ t.find? tuple = some n ∧
      t'.find? tuple = some (g n) ∧ ∀ other, ¬ tuple <+: other → t'.get? other = t.get? other
  /-- To create a path leads to a node that holds what was put there last, and changes nothing
  that is held. -/
  created : ∀ tuple, ∃ n, (t.create tuple).find? tuple = some n ∧ n.held = lastPut edits tuple ∧
    ∀ other, (t.create tuple).get? other = t.get? other
  /-- To put something at a tuple is to put it at the node that its path leads to. -/
  put : ∀ tuple s,
    (t.create tuple).modify? (changeHeld fun _ => some s) tuple = some (t.insert tuple s)
  /-- A visit comes to each tuple at which something is held, once, and to nothing else. It sees
  what is held there, and what it puts in its place is found there afterwards. -/
  visited : ∃ entries : List (Tuple × σ), (entries.map (·.1)).Nodup ∧
    (∀ tuple s, (tuple, s) ∈ entries ↔ lastPut edits tuple = some s) ∧
    t.toList = entries.map (·.2) ∧
    ∀ {τ : Type} (f : τ → σ → σ × τ) (state : τ),
      (mapAccum f state t).2 = (replaceAll f state entries).2 ∧
        ∀ tuple s, (mapAccum f state t).1.get? tuple = some s ↔
          (tuple, s) ∈ (replaceAll f state entries).1

/-- **A trie is a map from tuples**: after any edits, each tuple has what was put there last, and
no edit, change or visit confuses it with another. -/
theorem run_holds (edits : List (Edit σ)) : (run edits).Holds edits where
  found_iff _ := find?_run_isSome
  held tuple n hn := by rw [← get?_run, get?, hn, Option.bind_some]
  changed g tuple := modify?_cases g tuple (run edits)
  created tuple := by
    obtain ⟨n, hn⟩ := exists_find?_create (run edits) tuple
    have hheld : ((run edits).create tuple).get? tuple = n.held := by
      rw [get?, hn, Option.bind_some]
    exact ⟨n, hn, by rw [← hheld, get?_create, get?_run], get?_create (run edits) tuple⟩
  put := modify?_create (run edits)
  visited := by
    have unambiguous := unambiguous_run edits
    refine ⟨(run edits).entries, unambiguous.nodup_entries, fun tuple s => ?_,
      (map_entries _).symm, fun f state => ?_⟩
    · rw [unambiguous.mem_entries_iff, get?_run]
    · rw [entries_mapAccum]
      exact ⟨rfl, fun tuple s => (unambiguous.mapAccum f state).mem_entries_iff.symm⟩

end Edits

end Trie

end LoadBalancing
