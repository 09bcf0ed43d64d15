import ImpHost.Table

/-!
What a table answers after it was changed. `Table.get?_set` and `Table.get?_erase` are all that
proofs about records, engines and stores need to know of how a table is kept. Where the order of the
bindings is seen, it is the order of their names, and `Table.sorted_congr` says that it depends on
nothing but what the table answers; or it is that of first binding, of which `Table.keys_merge` says
what it is where one table is bound over another.
-/

namespace ImpHost.Table

variable {α β : Type}

theorem lookup_cons (x y : String) (v : α) (l : List (String × α)) :
    ((x, v) :: l).lookup y = if y = x then some v else l.lookup y := by
  rw [List.lookup_cons]
  by_cases same : y = x
  · rw [if_pos same, beq_iff_eq.2 same]
  · rw [if_neg same, beq_eq_false_iff_ne.2 same]

theorem lookup_bind (x y : String) (v : α) (l : List (String × α)) :
    (bind x v l).lookup y = if y = x then some v else l.lookup y := by
  induction l with
  | nil => rw [bind, lookup_cons]
  | cons p rest ih =>
    obtain ⟨z, w⟩ := p
    rw [bind]
    split
    · next bound =>
      subst bound
      rw [lookup_cons, lookup_cons]
      split <;> rfl
    · next other =>
      rw [lookup_cons, lookup_cons, ih]
      by_cases here : y = z
      · subst here
        rw [if_pos rfl, if_pos rfl, if_neg other]
      · rw [if_neg here, if_neg here]

theorem get?_empty_ne {x : String} {v : α} : (∅ : Table α).get? x ≠ some v :=
  fun bound => by cases (rfl : (∅ : Table α).get? x = none).symm.trans bound

/-- The new binding, and the others as before. -/
theorem get?_set (t : Table α) (x y : String) (v : α) :
    (t.set x v).get? y = if y = x then some v else t.get? y :=
  lookup_bind x y v t.entries

@[simp]
theorem get?_set_self (t : Table α) (x : String) (v : α) : (t.set x v).get? x = some v := by
  rw [get?_set, if_pos rfl]

theorem get?_set_of_ne (t : Table α) {x y : String} (other : y ≠ x) (v : α) :
    (t.set x v).get? y = t.get? y := by
  rw [get?_set, if_neg other]

theorem lookup_filter_ne (x y : String) (l : List (String × α)) :
    (l.filter fun p => p.1 ≠ x).lookup y = if y = x then none else l.lookup y := by
  induction l with
  | nil => exact (ite_self none).symm
  | cons p rest ih =>
    obtain ⟨z, w⟩ := p
    by_cases gone : z = x
    · subst gone
      rw [List.filter_cons_of_neg (by simp), ih, lookup_cons]
      split <;> rfl
    · rw [List.filter_cons_of_pos (by simp [gone]), lookup_cons, lookup_cons, ih]
      by_cases here : y = z
      · subst here
        rw [if_pos rfl, if_pos rfl, if_neg gone]
      · rw [if_neg here, if_neg here]

/-- The binding is gone, and the others are as before. -/
theorem get?_erase (t : Table α) (x y : String) :
    (t.erase x).get? y = if y = x then none else t.get? y :=
  lookup_filter_ne x y t.entries

@[simp]
theorem get?_erase_self (t : Table α) (x : String) : (t.erase x).get? x = none := by
  rw [get?_erase, if_pos rfl]

theorem get?_erase_of_ne (t : Table α) {x y : String} (other : y ≠ x) :
    (t.erase x).get? y = t.get? y := by
  rw [get?_erase, if_neg other]

theorem bind_bind (x : String) (v w : α) (l : List (String × α)) :
    bind x w (bind x v l) = bind x w l := by
  induction l with
  | nil => exact if_pos rfl
  | cons p rest ih =>
    obtain ⟨y, u⟩ := p
    by_cases bound : y = x
    · rw [bind, if_pos bound, bind, if_pos bound, bind, if_pos bound]
    · rw [bind, if_neg bound, bind, if_neg bound, bind, if_neg bound, ih]

theorem ext {t u : Table α} (same : t.entries = u.entries) : t = u := by
  cases t
  cases u
  cases same
  rfl

/-- The last binding of a name counts. -/
theorem set_set (t : Table α) (x : String) (v w : α) : (t.set x v).set x w = t.set x w :=
  ext (bind_bind x v w t.entries)

theorem filter_bind (x : String) (v : α) (l : List (String × α)) :
    (bind x v l).filter (fun p => p.1 ≠ x) = l.filter fun p => p.1 ≠ x := by
  induction l with
  | nil => rw [bind, List.filter_cons_of_neg (by simp)]
  | cons p rest ih =>
    obtain ⟨y, u⟩ := p
    by_cases bound : y = x
    · rw [bind, if_pos bound, List.filter_cons_of_neg (by simp [bound]),
        List.filter_cons_of_neg (by simp [bound])]
    · rw [bind, if_neg bound, List.filter_cons_of_pos (by simp [bound]),
        List.filter_cons_of_pos (by simp [bound]), ih]

theorem erase_set (t : Table α) (x : String) (v : α) : (t.set x v).erase x = t.erase x :=
  ext (filter_bind x v t.entries)

theorem isSome_lookup_iff (x : String) (l : List (String × α)) :
    (l.lookup x).isSome ↔ x ∈ l.map Prod.fst := by
  induction l with
  | nil => exact ⟨nofun, nofun⟩
  | cons p rest ih =>
    obtain ⟨y, v⟩ := p
    rw [lookup_cons, List.map_cons, List.mem_cons]
    split
    · next same => exact ⟨fun _ => .inl same, fun _ => rfl⟩
    · next other => exact ih.trans ⟨.inr, fun bound => bound.resolve_left other⟩

theorem isSome_get?_iff (t : Table α) (x : String) : (t.get? x).isSome ↔ x ∈ t.keys :=
  isSome_lookup_iff x t.entries

/-! ## Tables as maps -/

theorem lookup_eq_some_iff_mem {l : List (String × α)} (distinct : (l.map Prod.fst).Nodup)
    {x : String} {v : α} : l.lookup x = some v ↔ (x, v) ∈ l := by
  induction l with
  | nil => exact ⟨nofun, nofun⟩
  | cons p rest ih =>
    obtain ⟨y, w⟩ := p
    obtain ⟨absent, distinct⟩ := List.nodup_cons.1 distinct
    rw [lookup_cons, List.mem_cons, Prod.mk.injEq]
    split
    · next same =>
      subst same
      have once (v : α) : (x, v) ∉ rest := fun bound =>
        absent (List.mem_map.2 ⟨_, bound, rfl⟩)
      simp only [once, or_false, true_and, Option.some.injEq, eq_comm]
    · next other => simp only [other, false_and, false_or, ih distinct]

theorem get?_eq_some_iff (t : Table α) {x : String} {v : α} :
    t.get? x = some v ↔ (x, v) ∈ t.entries :=
  lookup_eq_some_iff_mem t.distinct

theorem get?_eq_of_perm {t u : Table α} (perm : t.entries.Perm u.entries) (x : String) :
    t.get? x = u.get? x := by
  refine Option.ext fun v => ?_
  rw [get?_eq_some_iff, get?_eq_some_iff, perm.mem_iff]

/-- Tables that answer alike have the same bindings. -/
theorem perm_of_get?_eq {t u : Table α} (same : ∀ x, t.get? x = u.get? x) :
    t.entries.Perm u.entries := by
  have distinct (t : Table α) : t.entries.Nodup :=
    List.Pairwise.of_map Prod.fst (fun _ _ apart same => apart (congrArg Prod.fst same)) t.distinct
  rw [List.perm_ext_iff_of_nodup (distinct t) (distinct u)]
  intro ⟨x, v⟩
  rw [← get?_eq_some_iff, ← get?_eq_some_iff, same]

theorem bind_of_not_mem {x : String} {l : List (String × α)} (new : x ∉ l.map Prod.fst) (v : α) :
    bind x v l = l ++ [(x, v)] := by
  induction l with
  | nil => rfl
  | cons p rest ih =>
    obtain ⟨y, w⟩ := p
    obtain ⟨other, new⟩ := List.ne_and_not_mem_of_not_mem_cons new
    rw [bind, if_neg (Ne.symm other), ih new, List.cons_append]

/-- New names are bound at the end. -/
theorem entries_setAll (t : Table α) {l : List (String × α)}
    (distinct : ((t.entries ++ l).map Prod.fst).Nodup) :
    (t.setAll l).entries = t.entries ++ l := by
  induction l generalizing t with
  | nil => exact (List.append_nil _).symm
  | cons p rest ih =>
    obtain ⟨x, v⟩ := p
    have new : x ∉ t.entries.map Prod.fst := by
      rw [List.map_append, List.nodup_append] at distinct
      exact fun bound => distinct.2.2 x bound x List.mem_cons_self rfl
    have bound : (t.set x v).entries = t.entries ++ [(x, v)] := bind_of_not_mem new v
    have rest_distinct : (((t.set x v).entries ++ rest).map Prod.fst).Nodup := by
      rwa [bound, List.append_assoc]
    exact (ih (t.set x v) rest_distinct).trans (by rw [bound, List.append_assoc]; rfl)

theorem ofList_entries (t : Table α) : ofList t.entries = t :=
  ext (entries_setAll empty t.distinct)

theorem empty_merge (t : Table α) : (∅ : Table α).merge t = t :=
  ofList_entries t

theorem mem_of_get?_ofList {l : List (String × α)} {x : String} {v : α}
    (bound : (ofList l).get? x = some v) : (x, v) ∈ l := by
  have each (l : List (String × α)) (t : Table α) (bound : (t.setAll l).get? x = some v) :
      t.get? x = some v ∨ (x, v) ∈ l := by
    induction l generalizing t with
    | nil => exact .inl bound
    | cons p rest ih =>
      rcases ih _ bound with before | member
      · rw [get?_set] at before
        split at before
        · next same =>
          cases before
          cases same
          exact .inr List.mem_cons_self
        · exact .inl before
      · exact .inr (List.mem_cons_of_mem _ member)
  exact (each l ∅ bound).resolve_left get?_empty_ne

theorem get?_setAll (t : Table α) {l : List (String × α)} (distinct : (l.map Prod.fst).Nodup)
    (x : String) : (t.setAll l).get? x = (l.lookup x).or (t.get? x) := by
  induction l generalizing t with
  | nil => rfl
  | cons p rest ih =>
    obtain ⟨y, v⟩ := p
    obtain ⟨absent, distinct⟩ := List.nodup_cons.1 distinct
    have step : (t.setAll ((y, v) :: rest)).get? x = (rest.lookup x).or ((t.set y v).get? x) :=
      ih (t.set y v) distinct
    rw [step, get?_set, lookup_cons]
    by_cases same : x = y
    · subst same
      have unbound : rest.lookup x = none := by
        rw [← Option.not_isSome_iff_eq_none, isSome_lookup_iff]
        exact absent
      rw [if_pos rfl, if_pos rfl, unbound]
      rfl
    · rw [if_neg same, if_neg same]

theorem isSome_get?_ofList (l : List (String × α)) (x : String) :
    ((ofList l).get? x).isSome ↔ x ∈ l.map Prod.fst := by
  have each (l : List (String × α)) (t : Table α) :
      ((t.setAll l).get? x).isSome ↔ (t.get? x).isSome ∨ x ∈ l.map Prod.fst := by
    induction l generalizing t with
    | nil => exact (or_iff_left List.not_mem_nil).symm
    | cons p rest ih =>
      have bound : ((t.set p.1 p.2).get? x).isSome ↔ x = p.1 ∨ (t.get? x).isSome := by
        rw [get?_set]
        split
        · next same => exact iff_of_true rfl (.inl same)
        · next other => exact (or_iff_right other).symm
      have step : ((t.setAll (p :: rest)).get? x).isSome ↔
          ((t.set p.1 p.2).get? x).isSome ∨ x ∈ rest.map Prod.fst := ih (t.set p.1 p.2)
      rw [step, bound, List.map_cons, List.mem_cons, or_assoc, or_left_comm]
  exact (each l ∅).trans (or_iff_right Bool.false_ne_true)

/-- The table with `f` of each value. -/
def map (f : α → β) (t : Table α) : Table β :=
  ⟨t.entries.map fun p => (p.1, f p.2), by
    rw [List.map_map]
    exact t.distinct⟩

theorem get?_map (f : α → β) (t : Table α) (x : String) : (t.map f).get? x = (t.get? x).map f := by
  refine Option.ext fun w => ?_
  rw [get?_eq_some_iff, Option.map_eq_some_iff]
  refine ⟨fun bound => ?_, ?_⟩
  · obtain ⟨⟨y, v⟩, member, eq⟩ := List.mem_map.1 bound
    obtain ⟨rfl, rfl⟩ := Prod.mk.inj eq
    exact ⟨v, t.get?_eq_some_iff.2 member, rfl⟩
  · rintro ⟨v, bound, rfl⟩
    exact List.mem_map.2 ⟨(x, v), t.get?_eq_some_iff.1 bound, rfl⟩

/-! ## Key order -/

/-- The bindings are in byte order of their names. -/
def InKeyOrder (t : Table α) : Prop :=
  t.entries.Pairwise fun a b => a.1 ≤ b.1

theorem eq_of_key_eq (t : Table α) {a b : String × α} (here : a ∈ t.entries)
    (there : b ∈ t.entries) (same : a.1 = b.1) : a = b := by
  have left : t.get? b.1 = some a.2 := t.get?_eq_some_iff.2 (by rwa [← same])
  have right : t.get? b.1 = some b.2 := t.get?_eq_some_iff.2 there
  exact Prod.ext same (Option.some.inj (left.symm.trans right))

/-- The bindings of a table, sorted by name. -/
def sorted (t : Table α) : List (String × α) :=
  t.entries.mergeSort fun a b => !decide (b.1 < a.1)

theorem sorted_perm (t : Table α) : t.sorted.Perm t.entries :=
  List.mergeSort_perm ..

theorem notAfter_iff (a b : String × α) : (!decide (b.1 < a.1)) = true ↔ a.1 ≤ b.1 := by
  rw [Bool.not_eq_true', decide_eq_false_iff_not, String.not_lt]

theorem notAfter_trans (a b c : String × α) (ab : (!decide (b.1 < a.1)) = true)
    (bc : (!decide (c.1 < b.1)) = true) : (!decide (c.1 < a.1)) = true := by
  rw [notAfter_iff] at ab bc ⊢
  exact String.le_trans ab bc

theorem notAfter_total (a b : String × α) :
    (!decide (b.1 < a.1) || !decide (a.1 < b.1)) = true := by
  rw [Bool.or_eq_true, notAfter_iff, notAfter_iff]
  exact String.le_total a.1 b.1

theorem pairwise_mergeSort (l : List (String × α)) :
    (l.mergeSort fun a b => !decide (b.1 < a.1)).Pairwise fun a b => a.1 ≤ b.1 :=
  (List.pairwise_mergeSort notAfter_trans notAfter_total l).imp fun {a b} => (notAfter_iff a b).1

/-- Entries for one name stay in their order. -/
theorem filter_mergeSort (l : List (String × α)) (x : String) :
    (l.mergeSort fun a b => !decide (b.1 < a.1)).filter (fun p => p.1 = x) =
      l.filter fun p => p.1 = x := by
  have alike : (l.filter fun p => p.1 = x).Pairwise fun a b => !decide (b.1 < a.1) := by
    refine List.pairwise_filter.2 (List.pairwise_of_forall fun a b here there => ?_)
    rw [decide_eq_true_eq] at here there
    have same : a.1 = b.1 := here.trans there.symm
    exact (notAfter_iff a b).2 (same ▸ String.le_refl a.1)
  have kept : (l.filter fun p => p.1 = x).Sublist (l.mergeSort fun a b => !decide (b.1 < a.1)) :=
    List.sublist_mergeSort notAfter_trans notAfter_total alike List.filter_sublist
  have among := kept.filter fun p => p.1 = x
  simp only [List.filter_filter, Bool.and_self] at among
  exact (among.eq_of_length ((List.mergeSort_perm l _).filter _).length_eq.symm).symm

theorem pairwise_sorted (t : Table α) : t.sorted.Pairwise fun a b => a.1 ≤ b.1 :=
  pairwise_mergeSort t.entries

/-- The order of the names leaves no choice. -/
theorem sorted_eq_of_perm {t : Table α} {l : List (String × α)} (perm : l.Perm t.entries)
    (inOrder : l.Pairwise fun a b => a.1 ≤ b.1) : t.sorted = l := by
  have anti (a b : String × α) (here : a ∈ t.sorted) (there : b ∈ l) (before : a.1 ≤ b.1)
      (after : b.1 ≤ a.1) : a = b :=
    t.eq_of_key_eq (t.sorted_perm.mem_iff.1 here) (perm.mem_iff.1 there)
      (String.le_antisymm before after)
  exact List.Perm.eq_of_pairwise anti t.pairwise_sorted inOrder (t.sorted_perm.trans perm.symm)

/-- Tables that answer alike are sorted alike. -/
theorem sorted_congr {t u : Table α} (same : ∀ x, t.get? x = u.get? x) : t.sorted = u.sorted :=
  sorted_eq_of_perm (u.sorted_perm.trans (perm_of_get?_eq same).symm) u.pairwise_sorted

/-- The table with its bindings in the order of their names. -/
def inOrder (t : Table α) : Table α :=
  ⟨t.sorted, ((t.sorted_perm.map Prod.fst).nodup_iff).2 t.distinct⟩

@[simp]
theorem get?_inOrder (t : Table α) (x : String) : t.inOrder.get? x = t.get? x :=
  get?_eq_of_perm t.sorted_perm x

theorem inKeyOrder_inOrder (t : Table α) : t.inOrder.InKeyOrder :=
  t.pairwise_sorted

theorem InKeyOrder.map {t : Table α} (inOrder : t.InKeyOrder) (f : α → β) :
    (t.map f).InKeyOrder :=
  List.pairwise_map.2 inOrder

theorem sorted_of_inKeyOrder {t : Table α} (inOrder : t.InKeyOrder) : t.sorted = t.entries :=
  sorted_eq_of_perm (.refl _) inOrder

/-! ## Binding one table over another -/

/-- A table is what it binds and the order of the names. -/
theorem ext_of_keys {t u : Table α} (keys : t.keys = u.keys) (same : ∀ x, t.get? x = u.get? x) :
    t = u := by
  apply ext
  have length : t.entries.length = u.entries.length := by
    simpa only [Table.keys, List.length_map] using congrArg List.length keys
  refine List.ext_getElem length fun i here there => ?_
  have name : t.entries[i].1 = u.entries[i].1 := by
    have both := List.getElem_of_eq keys (by rwa [Table.keys, List.length_map] : i < t.keys.length)
    simp only [Table.keys] at both
    rwa [List.getElem_map, List.getElem_map] at both
  have left : t.get? t.entries[i].1 = some t.entries[i].2 :=
    t.get?_eq_some_iff.2 (List.getElem_mem here)
  have right : u.get? u.entries[i].1 = some u.entries[i].2 :=
    u.get?_eq_some_iff.2 (List.getElem_mem there)
  rw [same, name, right] at left
  exact Prod.ext name (Option.some.inj left).symm

theorem keys_set (t : Table α) (x : String) (v : α) :
    (t.set x v).keys = if x ∈ t.keys then t.keys else t.keys ++ [x] := by
  have each (l : List (String × α)) : (bind x v l).map Prod.fst =
      if x ∈ l.map Prod.fst then l.map Prod.fst else l.map Prod.fst ++ [x] := by
    induction l with
    | nil => rfl
    | cons p rest ih =>
      obtain ⟨y, w⟩ := p
      by_cases bound : y = x
      · subst bound
        simp [bind]
      · rw [bind, if_neg bound, List.map_cons, List.map_cons, ih]
        simp only [List.mem_cons, Ne.symm bound, false_or]
        split <;> rfl
  exact each t.entries

/-- The names of the table keep their places, and the new ones follow in their order. -/
theorem keys_setAll (t : Table α) {l : List (String × α)} (distinct : (l.map Prod.fst).Nodup) :
    (t.setAll l).keys = t.keys ++ (l.map Prod.fst).filter (· ∉ t.keys) := by
  induction l generalizing t with
  | nil => exact (List.append_nil _).symm
  | cons p rest ih =>
    obtain ⟨x, v⟩ := p
    obtain ⟨absent, distinct⟩ := List.nodup_cons.1 distinct
    have step : (t.setAll ((x, v) :: rest)).keys =
        (t.set x v).keys ++ (rest.map Prod.fst).filter (· ∉ (t.set x v).keys) :=
      ih (t.set x v) distinct
    rw [step, List.map_cons, keys_set]
    by_cases bound : x ∈ t.keys
    · rw [if_pos bound, List.filter_cons_of_neg (by simp [bound])]
    · have others : (rest.map Prod.fst).filter (· ∉ t.keys ++ [x]) =
          (rest.map Prod.fst).filter (· ∉ t.keys) := by
        apply List.filter_congr
        intro y member
        have other : y ≠ x := fun same => absent (same ▸ member)
        simp [other]
      rw [if_neg bound, List.filter_cons_of_pos (by simp [bound]), others, List.append_assoc]
      rfl

/-- What is bound in either, the second over the first. -/
theorem get?_merge (t other : Table α) (x : String) :
    (t.merge other).get? x = (other.get? x).or (t.get? x) :=
  get?_setAll t other.distinct x

theorem keys_merge (t other : Table α) :
    (t.merge other).keys = t.keys ++ other.keys.filter (· ∉ t.keys) :=
  keys_setAll t other.distinct

/-- What is merged over a table can be merged once more with its names in order: those that the
table does not have are in order already. -/
theorem merge_inOrder_merge (t : Table α) {other : Table α} (inOrder : other.InKeyOrder) :
    t.merge (t.merge other).inOrder = t.merge other := by
  apply ext_of_keys
  · have perm : ((t.merge other).inOrder.keys.filter (· ∉ t.keys)).Perm
        (other.keys.filter (· ∉ t.keys)) := by
      have old : t.keys.filter (· ∉ t.keys) = [] :=
        List.filter_eq_nil_iff.2 fun x bound => by simp [bound]
      have whole := ((t.merge other).sorted_perm.map Prod.fst).filter (· ∉ t.keys)
      have names : (t.merge other).entries.map Prod.fst = _ := keys_merge t other
      rw [names, List.filter_append, old, List.nil_append, List.filter_filter] at whole
      simp only [Bool.and_self] at whole
      exact whole
    have ordered (u : Table α) (inOrder : u.InKeyOrder) :
        (u.keys.filter (· ∉ t.keys)).Pairwise (· ≤ ·) :=
      (List.pairwise_map.2 inOrder).filter _
    rw [keys_merge, keys_merge]
    congr 1
    exact perm.eq_of_pairwise (fun _ _ _ _ => String.le_antisymm)
      (ordered _ (t.merge other).inKeyOrder_inOrder) (ordered other inOrder)
  · intro x
    rw [get?_merge, get?_inOrder, get?_merge]
    cases other.get? x <;> cases t.get? x <;> rfl

end ImpHost.Table
