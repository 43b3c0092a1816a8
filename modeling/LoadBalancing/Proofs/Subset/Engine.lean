/-
The engine keeps all its subsets in step with the cluster.

A membership change reaches the subset of all hosts, the default subsets, and in the trie
only the subsets of the tuples that the hosts of the change have. The others need not
hear of it, since nobody who comes or leaves belongs to them: what is held in the trie is
held at plain tuples of the key sets, and for these a host belongs to the subset of a tuple
if and only if the tuple is one of its own. A change comes to each tuple once. So a subset either
hears of it, or is none of its business, or is made in the midst of it, from the hosts as they
are after it (`Outcome`).

Nothing that is held is ever dropped, and an added host brings a subset for each of its
tuples, so every tuple of a host of the cluster has one.
-/
import LoadBalancing.Proofs.Subset.HostSubset
import LoadBalancing.Proofs.Subset.Trie
import LoadBalancing.Subset.Engine

set_option autoImplicit false

namespace LoadBalancing

namespace SubsetEngine

/-! ## The tuples of a change -/

section Touched

variable {settings : SubsetSettings} {added removed : List Host} {tuple : Tuple}

theorem mem_tuplesOf {h : Host} :
    tuple ∈ tuplesOf settings h ↔
      ∃ keys ∈ settings.keySets, tuple ∈ h.tuples settings.listAsAny keys.keys := by
  rw [tuplesOf, List.mem_flatMap]

/-- Only items of the list are added. -/
theorem mem_of_mem_foldl_addFirst {l seen : List (Tuple × Bool)} {e : Tuple × Bool}
    (h : e ∈ l.foldl addFirst seen) : e ∈ seen ∨ e ∈ l := by
  induction l generalizing seen with
  | nil => exact .inl h
  | cons first rest ih =>
    rcases ih h with hseen | hrest
    · rw [addFirst] at hseen
      split at hseen
      · exact .inl hseen
      · rcases List.mem_append.1 hseen with hold | hnew
        · exact .inl hold
        · exact .inr (List.mem_singleton.1 hnew ▸ List.mem_cons_self)
    · exact .inr (List.mem_cons_of_mem _ hrest)

/-- What is there stays there. -/
theorem mem_foldl_addFirst_of_mem {l seen : List (Tuple × Bool)} {e : Tuple × Bool}
    (h : e ∈ seen) : e ∈ l.foldl addFirst seen := by
  induction l generalizing seen with
  | nil => exact h
  | cons first rest ih =>
    apply ih
    rw [addFirst]
    split
    · exact h
    · exact List.mem_append_left _ h

/-- Every tuple of the list is there in the end. -/
theorem exists_mem_foldl_addFirst {l seen : List (Tuple × Bool)} {e : Tuple × Bool} (h : e ∈ l) :
    ∃ adding, (e.1, adding) ∈ l.foldl addFirst seen := by
  induction l generalizing seen with
  | nil => cases h
  | cons first rest ih =>
    rcases List.mem_cons.1 h with rfl | hrest
    · rw [List.foldl_cons, addFirst]
      split
      next hany =>
        obtain ⟨⟨tuple, adding⟩, hmem, heq⟩ := List.any_eq_true.1 hany
        rw [decide_eq_true_eq] at heq
        exact ⟨adding, mem_foldl_addFirst_of_mem (heq ▸ hmem)⟩
      next =>
        exact ⟨e.2, mem_foldl_addFirst_of_mem (List.mem_append_right _ (List.mem_singleton.2 rfl))⟩
    · exact ih hrest

/-- No tuple is there twice. -/
theorem nodup_foldl_addFirst {l seen : List (Tuple × Bool)} (h : (seen.map (·.1)).Nodup) :
    ((l.foldl addFirst seen).map (·.1)).Nodup := by
  induction l generalizing seen with
  | nil => exact h
  | cons first rest ih =>
    apply ih
    rw [addFirst]
    split
    · exact h
    next hany =>
      rw [List.map_append, List.nodup_append]
      refine ⟨h, by simp, ?_⟩
      rintro a ha _ hb rfl
      obtain ⟨e, he, rfl⟩ := List.mem_map.1 ha
      refine hany (List.any_eq_true.2 ⟨e, he, decide_eq_true ?_⟩)
      exact List.mem_singleton.1 hb

theorem nodup_touched : ((touched settings added removed).map (·.1)).Nodup :=
  nodup_foldl_addFirst List.nodup_nil

/-- A tuple of an added host is touched by an added host first. -/
theorem touched_of_added {h : Host} (hadded : h ∈ added) (htuple : tuple ∈ tuplesOf settings h) :
    (tuple, true) ∈ touched settings added removed := by
  have hmem : (tuple, true) ∈
      added.flatMap fun h => (tuplesOf settings h).map fun tuple => (tuple, true) :=
    List.mem_flatMap.2 ⟨h, hadded, List.mem_map.2 ⟨tuple, htuple, rfl⟩⟩
  obtain ⟨adding, hfirst⟩ := @exists_mem_foldl_addFirst _ [] _ hmem
  -- all that is there when the added hosts are through comes from them
  have hadding : adding = true := by
    rcases mem_of_mem_foldl_addFirst hfirst with hnil | hin
    · cases hnil
    · obtain ⟨_, -, hin⟩ := List.mem_flatMap.1 hin
      obtain ⟨_, -, heq⟩ := List.mem_map.1 hin
      exact (Prod.mk.inj heq).2.symm
  rw [touched, List.foldl_append]
  exact mem_foldl_addFirst_of_mem (hadding ▸ hfirst)

theorem touched_of_removed {h : Host} (hremoved : h ∈ removed)
    (htuple : tuple ∈ tuplesOf settings h) :
    ∃ adding, (tuple, adding) ∈ touched settings added removed := by
  refine exists_mem_foldl_addFirst (e := (tuple, false)) (List.mem_append_right _ ?_)
  exact List.mem_flatMap.2 ⟨h, hremoved, List.mem_map.2 ⟨tuple, htuple, rfl⟩⟩

/-- What an added host touches first is a tuple of an added host. -/
theorem exists_added_of_touched (h : (tuple, true) ∈ touched settings added removed) :
    ∃ host ∈ added, tuple ∈ tuplesOf settings host := by
  rcases mem_of_mem_foldl_addFirst h with hnil | hall
  · cases hnil
  · rcases List.mem_append.1 hall with hin | hin
    · obtain ⟨host, hhost, hin⟩ := List.mem_flatMap.1 hin
      obtain ⟨_, htuple, heq⟩ := List.mem_map.1 hin
      exact ⟨host, hhost, (Prod.mk.inj heq).1 ▸ htuple⟩
    · obtain ⟨_, -, hin⟩ := List.mem_flatMap.1 hin
      obtain ⟨_, -, heq⟩ := List.mem_map.1 hin
      cases (Prod.mk.inj heq).2

/-- What is touched are the tuples of those who come or leave. -/
theorem exists_touched_iff : (∃ adding, (tuple, adding) ∈ touched settings added removed) ↔
    ∃ host ∈ added ++ removed, tuple ∈ tuplesOf settings host := by
  constructor
  · -- a tuple that comes up more than once is listed where it came up first
    rintro ⟨adding, h⟩
    rcases mem_of_mem_foldl_addFirst h with hnil | hall
    · cases hnil
    · rw [← List.map_flatMap, ← List.map_flatMap] at hall
      have htuple : tuple ∈ (added ++ removed).flatMap (tuplesOf settings) := by
        rw [List.flatMap_append, List.mem_append]
        rcases List.mem_append.1 hall with hin | hin
        · obtain ⟨_, hmem, heq⟩ := List.mem_map.1 hin
          exact .inl ((Prod.mk.inj heq).1 ▸ hmem)
        · obtain ⟨_, hmem, heq⟩ := List.mem_map.1 hin
          exact .inr ((Prod.mk.inj heq).1 ▸ hmem)
      exact List.mem_flatMap.1 htuple
  · rintro ⟨host, hmem, htuple⟩
    rcases List.mem_append.1 hmem with hadded | hremoved
    · exact ⟨true, touched_of_added hadded htuple⟩
    · exact touched_of_removed hremoved htuple

end Touched

/-! ## What a change leaves alone -/

/-- Two engines that differ in their tries, their counts and their workshops only. -/
structure SameFrame (e e' : SubsetEngine) : Prop where
  plan : e'.plan = e.plan
  settings : e'.view.settings = e.view.settings
  any : e'.view.any = e.view.any
  defaults : e'.view.defaults = e.view.defaults

theorem SameFrame.refl (e : SubsetEngine) : SameFrame e e := ⟨rfl, rfl, rfl, rfl⟩

theorem SameFrame.trans {e e' e'' : SubsetEngine} (h : SameFrame e e') (h' : SameFrame e' e'') :
    SameFrame e e'' :=
  ⟨h'.plan.trans h.plan, h'.settings.trans h.settings, h'.any.trans h.any,
    h'.defaults.trans h.defaults⟩

section Trie

variable (e : SubsetEngine) (t : HostTable) (whole : PrioritySet) (priority : Nat)
  (added removed : List Host)

theorem sameFrame_touch (tuple : Tuple) (adding : Bool) :
    SameFrame e (e.touch t whole priority added removed tuple adding) := by
  rw [touch]
  dsimp only
  split
  · exact ⟨rfl, rfl, rfl, rfl⟩
  · split
    · exact ⟨rfl, rfl, rfl, rfl⟩
    · exact .refl e

theorem sameFrame_foldl_touch (l : List (Tuple × Bool)) :
    SameFrame e (l.foldl
      (fun e (tuple, adding) => e.touch t whole priority added removed tuple adding) e) := by
  induction l generalizing e with
  | nil => exact .refl e
  | cons first rest ih => exact (sameFrame_touch e t whole priority added removed _ _).trans (ih _)

theorem sameFrame_updateTrie : SameFrame e (e.updateTrie t whole priority added removed) :=
  sameFrame_foldl_touch e t whole priority added removed _

/-- An engine that has heard of a change goes by the same plan. -/
@[simp] theorem plan_update : (e.update t whole priority added removed).plan = e.plan :=
  (sameFrame_updateTrie _ t whole priority added removed).plan

/-- **Touching a tuple** changes what is held there, and nothing else. -/
theorem get?_touch (tuple other : Tuple) (adding : Bool) :
    (e.touch t whole priority added removed tuple adding).view.root.get? other =
      if other = tuple then
        match e.view.root.get? tuple with
        | some s => some (s.update e.plan t whole priority added removed e.workshop).1
        | none => if adding then some (HostSubset.new e.plan t tuple whole e.workshop).1 else none
      else e.view.root.get? other := by
  rw [touch]
  dsimp only
  -- a subset that is there changes; one that is not is made if somebody comes
  cases hget : e.view.root.get? tuple with
  | some s =>
    dsimp only
    rw [Trie.get?_insert]
  | none =>
    cases adding with
    | true => exact Trie.get?_insert ..
    | false =>
      show e.view.root.get? other = _
      split
      next h => rw [h, hget]; rfl
      next => rfl

/-- What is held stays held, and an added host's tuple is held afterwards. -/
theorem isSome_foldl_touch {tuple : Tuple} (l : List (Tuple × Bool))
    (h : (e.view.root.get? tuple).isSome = true ∨ (tuple, true) ∈ l) :
    ((l.foldl (fun e (tuple, adding) => e.touch t whole priority added removed tuple adding)
      e).view.root.get? tuple).isSome = true := by
  induction l generalizing e with
  | nil => exact h.resolve_right (by simp)
  | cons first rest ih =>
    obtain ⟨x, adding⟩ := first
    refine ih _ ?_
    by_cases hx : tuple = x
    · -- the tuple is touched now: it is held already, or made now, or made later
      subst hx
      have hmade : (e.view.root.get? tuple).isSome = true ∨ adding = true ∨
          (tuple, true) ∈ rest := by
        rcases h with hheld | hmem
        · exact .inl hheld
        · rcases List.mem_cons.1 hmem with heq | hrest
          · exact .inr (.inl (Prod.mk.inj heq).2.symm)
          · exact .inr (.inr hrest)
      rcases hmade with hheld | rfl | hrest
      · left
        obtain ⟨s, hs⟩ := Option.isSome_iff_exists.1 hheld
        rw [get?_touch, if_pos rfl, hs]
        rfl
      · left
        rw [get?_touch, if_pos rfl]
        split <;> rfl
      · exact .inr hrest
    · rcases h with hheld | hmem
      · left
        rwa [get?_touch, if_neg hx]
      · rcases List.mem_cons.1 hmem with heq | hrest
        · exact absurd (Prod.mk.inj heq).1 hx
        · exact .inr hrest

theorem isSome_updateTrie_of_isSome {tuple : Tuple}
    (h : (e.view.root.get? tuple).isSome = true) :
    ((e.updateTrie t whole priority added removed).view.root.get? tuple).isSome = true :=
  isSome_foldl_touch e t whole priority added removed _ (.inl h)

theorem isSome_updateTrie_of_added {h : Host} {tuple : Tuple} (hadded : h ∈ added)
    (htuple : tuple ∈ tuplesOf e.plan.settings h) :
    ((e.updateTrie t whole priority added removed).view.root.get? tuple).isSome = true :=
  isSome_foldl_touch e t whole priority added removed _ (.inr (touched_of_added hadded htuple))

end Trie

/-! ## Touching all tuples of a change -/

section Held

variable {t : HostTable} {whole : PrioritySet} {priority : Nat} {added removed : List Host}

/-- How what is held at a tuple came about while some tuples were touched. -/
inductive Outcome (plan : SubsetPlan) (t : HostTable) (whole : PrioritySet) (priority : Nat)
    (added removed : List Host) (tuple : Tuple) (touches : List (Tuple × Bool))
    (before : Option HostSubset) : HostSubset → Prop where
  | untouched {s : HostSubset} :
      (∀ adding, (tuple, adding) ∉ touches) → before = some s →
        Outcome plan t whole priority added removed tuple touches before s
  | updated {s : HostSubset} {adding : Bool} (w : Workshop) :
      (tuple, adding) ∈ touches → before = some s →
        Outcome plan t whole priority added removed tuple touches before
          (s.update plan t whole priority added removed w).1
  | made (w : Workshop) :
      (tuple, true) ∈ touches → before = none →
        Outcome plan t whole priority added removed tuple touches before
          (HostSubset.new plan t tuple whole w).1

/-- **Touching one tuple after the other.** Each comes up once, so what is held at it is what
it was until then. The induction is on the tuples still to come. -/
theorem outcome_foldl_touch {plan : SubsetPlan} {e : SubsetEngine} (hplan : e.plan = plan)
    {l : List (Tuple × Bool)} (nodup : (l.map (·.1)).Nodup) {tuple : Tuple} {s : HostSubset}
    (hs : (l.foldl (fun e (tuple, adding) => e.touch t whole priority added removed tuple adding)
      e).view.root.get? tuple = some s) :
    Outcome plan t whole priority added removed tuple l (e.view.root.get? tuple) s := by
  induction l generalizing e with
  | nil => exact .untouched (fun _ => List.not_mem_nil) hs
  | cons first rest ih =>
    obtain ⟨x, adding⟩ := first
    rw [List.map_cons, List.nodup_cons] at nodup
    have hrest := ih ((sameFrame_touch e t whole priority added removed x adding).plan.trans hplan)
      nodup.2 hs
    rw [get?_touch, hplan] at hrest
    by_cases hx : tuple = x
    · -- it comes up now, and never again
      subst hx
      have never (adding' : Bool) : (tuple, adding') ∉ rest :=
        fun hmem => nodup.1 (List.mem_map.2 ⟨_, hmem, rfl⟩)
      rw [if_pos rfl] at hrest
      cases hrest with
      | untouched _ hheld =>
        split at hheld
        next held hbefore =>
          cases hheld
          exact .updated e.workshop List.mem_cons_self hbefore
        next hbefore =>
          split at hheld
          next hadding =>
            cases hheld
            exact .made e.workshop (hadding ▸ List.mem_cons_self) hbefore
          next => cases hheld
      | updated _ hmem _ => exact absurd hmem (never _)
      | made _ hmem _ => exact absurd hmem (never _)
    · rw [if_neg hx] at hrest
      cases hrest with
      | untouched hnot hbefore =>
        refine .untouched (fun adding' hmem => ?_) hbefore
        rcases List.mem_cons.1 hmem with heq | hmem
        · exact hx (Prod.mk.inj heq).1
        · exact hnot adding' hmem
      | updated w hmem hbefore => exact .updated w (List.mem_cons_of_mem _ hmem) hbefore
      | made w hmem hbefore => exact .made w (List.mem_cons_of_mem _ hmem) hbefore

/-- **A change of the trie.** What is held afterwards either heard of the change, or is at a
tuple that no host of the change has, or was made for a tuple of an added host. -/
theorem outcome_updateTrie {e : SubsetEngine} {tuple : Tuple} {s : HostSubset}
    (hs : (e.updateTrie t whole priority added removed).view.root.get? tuple = some s) :
    Outcome e.plan t whole priority added removed tuple (touched e.plan.settings added removed)
      (e.view.root.get? tuple) s :=
  outcome_foldl_touch rfl nodup_touched hs

/-- What a change of the trie does to a property of all that is held. -/
theorem held_updateTrie {P Q : Tuple → HostSubset → Prop} {e : SubsetEngine}
    (update : ∀ tuple s w, P tuple s →
      Q tuple (s.update e.plan t whole priority added removed w).1)
    (untouched : ∀ tuple s, P tuple s → (∀ o ∈ added, tuple ∉ tuplesOf e.plan.settings o) →
      (∀ o ∈ removed, tuple ∉ tuplesOf e.plan.settings o) → Q tuple s)
    (made : ∀ tuple w, ∀ o ∈ added, tuple ∈ tuplesOf e.plan.settings o →
      Q tuple (HostSubset.new e.plan t tuple whole w).1)
    (h : ∀ tuple s, e.view.root.get? tuple = some s → P tuple s) {tuple : Tuple} {s : HostSubset}
    (hs : (e.updateTrie t whole priority added removed).view.root.get? tuple = some s) :
    Q tuple s := by
  cases outcome_updateTrie hs with
  | untouched hnot hbefore =>
    -- what is not touched is no tuple of those who come or leave
    have nobody (o : Host) (ho : o ∈ added ++ removed) : tuple ∉ tuplesOf e.plan.settings o := by
      intro htuple
      obtain ⟨adding, hmem⟩ := exists_touched_iff.2 ⟨o, ho, htuple⟩
      exact hnot adding hmem
    exact untouched tuple s (h tuple s hbefore)
      (fun o ho => nobody o (List.mem_append_left _ ho))
      fun o ho => nobody o (List.mem_append_right _ ho)
  | updated w _ hbefore => exact update tuple _ w (h tuple _ hbefore)
  | made w hmem _ =>
    obtain ⟨o, ho, htuple⟩ := exists_added_of_touched hmem
    exact made tuple w o ho htuple

end Held

/-! ## What is held in the trie -/

/-- What is held at a tuple: the subset of the tuple, in step. Its keys are one of the key
sets, and its values are plain. -/
structure Entry (plan : SubsetPlan) (whole : PrioritySet) (tuple : Tuple) (s : HostSubset) :
    Prop where
  metadata : s.metadata = tuple
  keyed : ∃ keys ∈ plan.settings.keySets, tuple.map (·.1) = keys.keys
  plain : tuple.Plain plan.settings.listAsAny
  inStep : s.InStep plan whole

variable {plan : SubsetPlan} {whole before after : PrioritySet} {priority : Nat}
  {added removed : List Host} {tuple : Tuple} {s : HostSubset}

/-- A host belongs to the subset of a tuple that is held if and only if the tuple is one of
the host's own. -/
theorem Entry.matches_iff (h : Entry plan whole tuple s) (host : Host) :
    host.matchesTuple plan.settings.listAsAny s.metadata = true ↔
      tuple ∈ tuplesOf plan.settings host := by
  rw [h.metadata, ← Host.mem_tuples_iff_matchesTuple h.plain, mem_tuplesOf]
  constructor
  · intro hmem
    obtain ⟨keys, hkeys, heq⟩ := h.keyed
    exact ⟨keys, hkeys, heq ▸ hmem⟩
  · rintro ⟨keys, -, hmem⟩
    rwa [(Host.mem_tuples.1 hmem).1]

theorem Entry.update (h : Entry plan before tuple s)
    (step : LevelStep before after priority added removed) (t : HostTable) (w : Workshop) :
    Entry plan after tuple (s.update plan t after priority added removed w).1 :=
  ⟨h.metadata, h.keyed, h.plain, h.inStep.update step w⟩

/-- A subset at a tuple that no host of the change has need not hear of it. -/
theorem Entry.untouched (h : Entry plan before tuple s)
    (step : LevelStep before after priority added removed)
    (hadded : ∀ o ∈ added, tuple ∉ tuplesOf plan.settings o)
    (hremoved : ∀ o ∈ removed, tuple ∉ tuplesOf plan.settings o) :
    Entry plan after tuple s := by
  have hnot (o : Host) (ho : tuple ∉ tuplesOf plan.settings o) :
      o.matchesTuple plan.settings.listAsAny s.metadata = false := by
    rw [Bool.eq_false_iff]
    exact fun hmatches => ho ((h.matches_iff o).1 hmatches)
  exact ⟨h.metadata, h.keyed, h.plain,
    h.inStep.untouched step (fun o ho => hnot o (hadded o ho)) fun o ho => hnot o (hremoved o ho)⟩

/-- A tuple of a host without lists in lists may be held. -/
theorem entry_new {host : Host} (flat : host.Flat) (htuple : tuple ∈ tuplesOf plan.settings host)
    (t : HostTable) (whole : PrioritySet) (w : Workshop) :
    Entry plan whole tuple (HostSubset.new plan t tuple whole w).1 := by
  obtain ⟨keys, hkeys, hmem⟩ := mem_tuplesOf.1 htuple
  exact ⟨rfl, ⟨keys, hkeys, (Host.mem_tuples.1 hmem).1⟩, Host.plain_of_mem_tuples flat hmem,
    HostSubset.inStep_new tuple whole w⟩

/-- All that is held are subsets in step. -/
def Holds (e : SubsetEngine) (whole : PrioritySet) : Prop :=
  ∀ tuple s, e.view.root.get? tuple = some s → Entry e.plan whole tuple s

/-- **A change of the trie.** All that is held is in step afterwards: what is touched hears of
the change, and what is not has nobody who comes or leaves. -/
theorem Holds.updateTrie {e : SubsetEngine} (h : e.Holds before) (t : HostTable)
    (step : LevelStep before after priority added removed) (flat : ∀ h ∈ added, h.Flat) :
    (e.updateTrie t after priority added removed).Holds after := by
  intro tuple s hs
  rw [(sameFrame_updateTrie e t after priority added removed).plan]
  refine held_updateTrie (P := Entry e.plan before) (Q := Entry e.plan after)
    (fun tuple s w entry => entry.update step t w) (fun tuple s entry hadded hremoved => ?_)
    (fun tuple w o ho htuple => ?_) h hs
  · exact entry.untouched step hadded hremoved
  · -- a new subset is made of the hosts as they are after the change
    exact entry_new (flat o ho) htuple t after w

/-! ## The default subsets -/

section Defaults

variable {β : Type} (f : β → Workshop → HostSubset × Workshop)

theorem metadata_mapDefaults {g : β → Tuple} (hf : ∀ x w, (f x w).1.metadata = g x) (l : List β)
    (w : Workshop) : (mapDefaults f l w).1.map (·.metadata) = l.map g := by
  induction l generalizing w with
  | nil => rfl
  | cons x rest ih =>
    rw [mapDefaults]
    dsimp only
    rw [List.map_cons, List.map_cons, hf, ih]

/-- Each default subset is made in some state of the workshop. -/
theorem exists_of_mem_mapDefaults {l : List β} {w : Workshop} {s : HostSubset}
    (h : s ∈ (mapDefaults f l w).1) : ∃ x ∈ l, ∃ w', s = (f x w').1 := by
  induction l generalizing w with
  | nil => cases h
  | cons x rest ih =>
    rw [mapDefaults] at h
    dsimp only at h
    rcases List.mem_cons.1 h with rfl | hrest
    · exact ⟨x, List.mem_cons_self, w, rfl⟩
    · obtain ⟨y, hy, w', hs⟩ := ih hrest
      exact ⟨y, List.mem_cons_of_mem _ hy, w', hs⟩

end Defaults

/-! ## The subsets that are always there -/

/-- The subset of all hosts and the default subsets are in step. -/
structure StandingInStep (e : SubsetEngine) (whole : PrioritySet) : Prop where
  settings : e.view.settings = e.plan.settings
  anyMetadata : e.view.any.metadata = []
  any : e.view.any.InStep e.plan whole
  defaultsMetadata : e.view.defaults.map (·.metadata) = e.plan.settings.defaults
  defaults : ∀ s ∈ e.view.defaults, s.InStep e.plan whole

variable {e e' : SubsetEngine}

/-- A change of the trie leaves them alone. -/
theorem StandingInStep.ofFrame (h : e.StandingInStep whole) (frame : SameFrame e e') :
    e'.StandingInStep whole where
  settings := by rw [frame.settings, frame.plan, h.settings]
  anyMetadata := by rw [frame.any, h.anyMetadata]
  any := by rw [frame.any, frame.plan]; exact h.any
  defaultsMetadata := by rw [frame.defaults, frame.plan, h.defaultsMetadata]
  defaults := by rw [frame.defaults, frame.plan]; exact h.defaults

/-- What brings every subset in step brings these in step. -/
theorem StandingInStep.change (h : e.StandingInStep before)
    {change : HostSubset → Workshop → HostSubset × Workshop}
    (metadata : ∀ s w, (change s w).1.metadata = s.metadata)
    (inStep : ∀ s w, s.InStep e.plan before → (change s w).1.InStep e.plan after) :
    (e.changeStanding change).StandingInStep after where
  settings := h.settings
  anyMetadata := (metadata _ _).trans h.anyMetadata
  any := inStep _ _ h.any
  defaultsMetadata := (metadata_mapDefaults change metadata _ _).trans h.defaultsMetadata
  defaults s hs := by
    obtain ⟨s', hs', w, rfl⟩ := exists_of_mem_mapDefaults change hs
    exact inStep s' w (h.defaults s' hs')

theorem standingInStep_standing (plan : SubsetPlan) (engine : Nat) (t : HostTable)
    (whole : PrioritySet) (w : Workshop) :
    (standing plan engine t whole w).StandingInStep whole where
  settings := rfl
  anyMetadata := rfl
  any := HostSubset.inStep_new [] whole w
  defaultsMetadata :=
    (metadata_mapDefaults (g := id) _ (fun _ _ => rfl) _ _).trans (List.map_id _)
  defaults s hs := by
    obtain ⟨metadata, -, w', rfl⟩ := exists_of_mem_mapDefaults _ hs
    exact HostSubset.inStep_new metadata whole w'

/-! ## Engines in step -/

/-- All subsets of an engine are in step with the cluster, and every tuple of a host of the
cluster has one. -/
structure InStep (e : SubsetEngine) (whole : PrioritySet) : Prop where
  standing : e.StandingInStep whole
  holds : e.Holds whole
  complete : ∀ h ∈ whole.hosts, ∀ tuple ∈ tuplesOf e.plan.settings h,
    (e.view.root.get? tuple).isSome = true

theorem InStep.congr (h : e.InStep before) (same : ∀ p, after.hostsAt p = before.hostsAt p) :
    e.InStep after where
  standing :=
    { settings := h.standing.settings
      anyMetadata := h.standing.anyMetadata
      any := h.standing.any.congr same
      defaultsMetadata := h.standing.defaultsMetadata
      defaults := fun s hs => (h.standing.defaults s hs).congr same }
  holds tuple s hs := by
    have entry := h.holds tuple s hs
    exact ⟨entry.metadata, entry.keyed, entry.plain, entry.inStep.congr same⟩
  complete host hhost := by
    obtain ⟨p, hp⟩ := PrioritySet.mem_hosts.1 hhost
    exact h.complete host (PrioritySet.mem_hosts.2 ⟨p, same p ▸ hp⟩)

/-- **A change of the engine.** If whoever comes carries no list within a list, all subsets
are in step with the priority set as it is after the change. -/
theorem InStep.update (h : e.InStep before) (t : HostTable)
    (step : LevelStep before after priority added removed) (flat : ∀ h ∈ added, h.Flat) :
    (e.update t after priority added removed).InStep after := by
  have changed : (e.changeStanding fun s w =>
      s.update e.plan t after priority added removed w).StandingInStep after :=
    h.standing.change (fun _ _ => rfl) fun s w hs => hs.update step w
  have holds : (e.changeStanding fun s w =>
      s.update e.plan t after priority added removed w).Holds before := h.holds
  have frame := sameFrame_updateTrie
    (e.changeStanding fun s w => s.update e.plan t after priority added removed w)
    t after priority added removed
  refine ⟨changed.ofFrame frame, holds.updateTrie t step flat, ?_⟩
  · intro host hhost tuple htuple
    rw [SubsetEngine.update, frame.plan] at htuple
    -- a host was there before, and its tuples too, or it comes and brings them
    rcases step.mem_hosts hhost with hbefore | hadded
    · exact isSome_updateTrie_of_isSome _ t after priority added removed
        (h.complete host hbefore tuple htuple)
    · exact isSome_updateTrie_of_added _ t after priority added removed hadded htuple

/-- Every subset in the trie catches up, in its place. -/
theorem visited_refresh (e : SubsetEngine) (t : HostTable) (whole : PrioritySet) (tuple : Tuple) :
    Trie.Visited (fun w (s : HostSubset) => s.refresh e.plan t whole w)
      (e.view.root.get? tuple) ((e.refresh t whole).view.root.get? tuple) :=
  Trie.get?_mapAccum _ _ _ _

theorem exists_of_held_refresh {t : HostTable} {tuple : Tuple} {s : HostSubset}
    (hs : (e.refresh t whole).view.root.get? tuple = some s) :
    ∃ s' w, e.view.root.get? tuple = some s' ∧ s = (s'.refresh e.plan t whole w).1 := by
  rcases visited_refresh e t whole tuple with ⟨-, hnone⟩ | ⟨s', w, hbefore, hafter⟩
  · cases hs.symm.trans hnone
  · cases hs.symm.trans hafter
    exact ⟨s', w, hbefore, rfl⟩

theorem isSome_refresh (e : SubsetEngine) (t : HostTable) (whole : PrioritySet) (tuple : Tuple) :
    ((e.refresh t whole).view.root.get? tuple).isSome = (e.view.root.get? tuple).isSome := by
  rcases visited_refresh e t whole tuple with ⟨hbefore, hafter⟩ | ⟨s, w, hbefore, hafter⟩
  · rw [hbefore, hafter]
  · rw [hbefore, hafter, Option.isSome_some, Option.isSome_some]

/-- **Catching up** with health and weights replaces every subset, and moves no host. -/
theorem InStep.refresh (h : e.InStep before) (t : HostTable)
    (same : ∀ p, after.hostsAt p = before.hostsAt p) : (e.refresh t after).InStep after := by
  have changed : (e.changeStanding fun s w => s.refresh e.plan t after w).StandingInStep after :=
    h.standing.change (fun _ _ => rfl) fun s w hs => hs.refresh same w
  refine ⟨⟨changed.settings, changed.anyMetadata, changed.any, changed.defaultsMetadata,
    changed.defaults⟩, fun tuple s hs => ?_, fun host hhost tuple htuple => ?_⟩
  · obtain ⟨s', w, hbefore, rfl⟩ := exists_of_held_refresh hs
    have entry := h.holds tuple s' hbefore
    exact ⟨entry.metadata, entry.keyed, entry.plain, entry.inStep.refresh same w⟩
  · have hbefore : host ∈ before.hosts := by
      obtain ⟨p, hp⟩ := PrioritySet.mem_hosts.1 hhost
      exact PrioritySet.mem_hosts.2 ⟨p, same p ▸ hp⟩
    rw [isSome_refresh]
    exact h.complete host hbefore tuple htuple

/-- Levels that come in one after the other, each of them as a change that the priority set
shows already. The induction is on the levels still to come. -/
theorem foldl_updateTrie (e : SubsetEngine) (t : HostTable) (levels : List HostSet)
    (shown : ∀ l ∈ levels, l.hosts = whole.hostsAt l.priority)
    (flat : ∀ h ∈ whole.hosts, h.Flat) (holds : e.Holds whole) :
    let e' := levels.foldl (fun e l => e.updateTrie t whole l.priority l.hosts []) e
    SameFrame e e' ∧ e'.Holds whole ∧
      ∀ tuple, (e.view.root.get? tuple).isSome = true ∨
          (∃ l ∈ levels, ∃ h ∈ l.hosts, tuple ∈ tuplesOf e.plan.settings h) →
        (e'.view.root.get? tuple).isSome = true := by
  induction levels generalizing e with
  | nil => exact ⟨.refl e, holds, fun tuple h => h.resolve_right (by simp)⟩
  | cons l rest ih =>
    have hl := shown l List.mem_cons_self
    -- the set shows the level already, so its hosts come to where they are
    have step : LevelStep whole whole l.priority l.hosts [] := hl ▸ LevelStep.self whole l.priority
    have flatLevel : ∀ h ∈ l.hosts, h.Flat := fun h hh =>
      flat h (PrioritySet.mem_hosts.2 ⟨l.priority, hl ▸ hh⟩)
    have frame := sameFrame_updateTrie e t whole l.priority l.hosts []
    obtain ⟨frameRest, holdsRest, someRest⟩ := ih (e.updateTrie t whole l.priority l.hosts [])
      (fun l' hl' => shown l' (List.mem_cons_of_mem _ hl')) (holds.updateTrie t step flatLevel)
    refine ⟨frame.trans frameRest, holdsRest, fun tuple h => someRest tuple ?_⟩
    rw [frame.plan]
    rcases h with hheld | ⟨l', hl', host, hhost, htuple⟩
    · exact .inl (isSome_updateTrie_of_isSome e t whole l.priority l.hosts [] hheld)
    · -- subsets are made for the tuples of this level, and never taken away by those after it
      rcases List.mem_cons.1 hl' with rfl | hrest
      · exact .inl (isSome_updateTrie_of_added e t whole _ _ [] hhost htuple)
      · exact .inr ⟨l', hrest, host, hhost, htuple⟩

/-- **A new engine** is in step with the priority set that it is made for. -/
theorem inStep_new (plan : SubsetPlan) (engine : Nat) (t : HostTable) {whole : PrioritySet}
    (flat : ∀ h ∈ whole.hosts, h.Flat) (w : Workshop) :
    (new plan engine t whole w).InStep whole := by
  have shown : ∀ l ∈ whole.levels, l.hosts = whole.hostsAt l.priority :=
    fun l hl => (PrioritySet.hostsAt_of_level? (PrioritySet.level?_of_mem hl)).symm
  -- the trie is empty at first, and the levels come in one by one
  have nothing : (standing plan engine t whole w).Holds whole := by
    intro tuple s hs
    cases (Trie.get?_empty tuple).symm.trans hs
  obtain ⟨frame, holds, complete⟩ := foldl_updateTrie (standing plan engine t whole w) t
    whole.levels shown flat nothing
  refine ⟨(standingInStep_standing plan engine t whole w).ofFrame frame, holds, ?_⟩
  intro host hhost tuple htuple
  rw [new, frame.plan] at htuple
  obtain ⟨l, hl, hh⟩ := List.mem_flatMap.1 hhost
  exact complete tuple (.inr ⟨l, hl, host, hh, htuple⟩)

end SubsetEngine

end LoadBalancing
