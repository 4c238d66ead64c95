import Mathlib.Data.List.Forall2

/-!
# Lists and results

Facts about lists, and about computations that give a result or a fault, that have
nothing to do with assemblers.

A computation over a list is followed item by item. What comes out corresponds to what
went in (`forall₂_of_mapM`), and correspondence is carried through searches and through
further computations (`rel_findSome?`, `rel_made`).
-/

namespace TwoPass

/-! ## Results -/

theorem exists_of_isOk {ε α : Type} {x : Except ε α} (h : x.isOk = true) :
    ∃ v, x = .ok v := by
  cases x with
  | error e => cases h
  | ok v => exact ⟨v, rfl⟩

theorem bind_eq_ok {ε α β : Type} {x : Except ε α} {f : α → Except ε β} {b : β}
    (h : x >>= f = .ok b) : ∃ a, x = .ok a ∧ f a = .ok b := by
  cases x with
  | error e => cases h
  | ok a => exact ⟨a, rfl, h⟩

theorem eq_ok_of_toOption {ε α : Type} {x : Except ε α} {a : α} (h : x.toOption = some a) :
    x = .ok a := by
  cases x with
  | error e => cases h
  | ok b => exact congrArg Except.ok (Option.some.inj h)

theorem mapError_eq_ok {ε ε' α : Type} {f : ε → ε'} {x : Except ε α} {a : α}
    (h : x.mapError f = .ok a) : x = .ok a := by
  cases x with
  | error e => cases h
  | ok b =>
    cases h
    rfl

theorem eq_error_of_map {ε α β : Type} {f : α → β} {x : Except ε α} {e : ε}
    (h : x.map f = .error e) : x = .error e := by
  cases x with
  | error e' =>
    cases h
    rfl
  | ok a => cases h

/-! ## What is made item by item -/

/-- What is made of a list is made item by item. -/
theorem forall₂_of_mapM {ε α β : Type} {f : α → Except ε β} {items : List α}
    {made : List β} (h : items.mapM f = .ok made) :
    List.Forall₂ (fun a b => f a = .ok b) items made := by
  induction items generalizing made with
  | nil =>
    cases h
    exact .nil
  | cons a rest ih =>
    rw [List.mapM_cons] at h
    obtain ⟨b, hb, h⟩ := bind_eq_ok h
    obtain ⟨more, hmore, h⟩ := bind_eq_ok h
    cases h
    exact .cons hb (ih hmore)

/-- If something is made of every item, something is made of the list. -/
theorem exists_mapM_eq_ok {ε α β : Type} {f : α → Except ε β} {items : List α}
    (h : ∀ a ∈ items, ∃ b, f a = .ok b) : ∃ made, items.mapM f = .ok made := by
  induction items with
  | nil => exact ⟨[], rfl⟩
  | cons a rest ih =>
    obtain ⟨b, hb⟩ := h a List.mem_cons_self
    obtain ⟨more, hmore⟩ := ih fun x hx => h x (List.mem_cons_of_mem a hx)
    refine ⟨b :: more, ?_⟩
    rw [List.mapM_cons, hb, hmore]
    rfl

/-- What is read back item by item is read back as a list. -/
theorem mapM_map_eq_some {α β : Type} {write : α → β} {read : β → Option α} {items : List α}
    (h : ∀ a ∈ items, read (write a) = some a) : (items.map write).mapM read = some items := by
  induction items with
  | nil => rfl
  | cons a rest ih =>
    rw [List.map_cons, List.mapM_cons, h a List.mem_cons_self,
      ih fun b hb => h b (List.mem_cons_of_mem a hb)]
    rfl

theorem getElem?_filterMap {α β : Type} {f : α → Option β} {items : List α}
    (h : ∀ a ∈ items, (f a).isSome) (i : Nat) :
    (items.filterMap f)[i]? = items[i]?.bind f := by
  induction items generalizing i with
  | nil => rfl
  | cons a rest ih =>
    obtain ⟨b, hb⟩ := Option.isSome_iff_exists.mp (h a List.mem_cons_self)
    rw [List.filterMap_cons_some hb]
    cases i with
    | zero => exact hb.symm
    | succ i => exact ih (fun x hx => h x (List.mem_cons_of_mem a hx)) i

/-- Items of a kind that does not show. -/
theorem filterMap_map_eq_nil {α β γ : Type} {f : β → Option γ} {g : α → β}
    (h : ∀ a, f (g a) = none) (items : List α) : (items.map g).filterMap f = [] := by
  rw [List.filterMap_map, List.filterMap_eq_nil_iff]
  exact fun a _ => h a

/-- What one item shows. -/
theorem filterMap_singleton {α β : Type} (f : α → Option β) (a : α) :
    [a].filterMap f = (f a).toList := by
  rw [List.filterMap_eq_flatMap_toList, List.flatMap_singleton]

theorem exists_of_forall₂ {α β : Type} {R : α → β → Prop} {items : List α} {made : List β}
    (h : List.Forall₂ R items made) {i : Nat} {b : β} (hb : made[i]? = some b) :
    ∃ a, items[i]? = some a ∧ R a b := by
  induction h generalizing i with
  | nil => cases hb
  | cons hab _ ih =>
    cases i with
    | zero =>
      cases hb
      exact ⟨_, rfl, hab⟩
    | succ i => exact ih hb

/-- Items that correspond are items of their lists. -/
theorem forall₂_mem {α β : Type} {R : α → β → Prop} {items : List α} {others : List β}
    (h : List.Forall₂ R items others) :
    List.Forall₂ (fun a b => a ∈ items ∧ b ∈ others ∧ R a b) items others := by
  have hright := ((List.forall₂_and_left _ _).mpr ⟨fun b hb => hb, h.flip⟩).flip
  exact (List.forall₂_and_left _ _).mpr ⟨fun a ha => ha, hright⟩

/-- What is made of items that correspond corresponds, if it does so for every two. -/
theorem rel_made {α β γ δ : Type} {R : α → β → Prop} {F : α → γ → Prop} {G : β → δ → Prop}
    {S : γ → δ → Prop} {items : List α} {others : List β} {made : List γ} {made' : List δ}
    (h : List.Forall₂ R items others) (hF : List.Forall₂ F items made)
    (hG : List.Forall₂ G others made') (hS : ∀ a b c d, R a b → F a c → G b d → S c d) :
    List.Forall₂ S made made' := by
  induction h generalizing made made' with
  | nil =>
    cases hF
    cases hG
    exact .nil
  | cons hab _ ih =>
    cases hF with
    | cons hac hF =>
      cases hG with
      | cons hbd hG => exact .cons (hS _ _ _ _ hab hac hbd) (ih hF hG)

/-- Lists that correspond make the same of their items if every two items do. -/
theorem flatMap_eq_of_forall₂ {α β γ : Type} {f : α → List γ} {g : β → List γ}
    {items : List α} {others : List β} (h : List.Forall₂ (fun a b => g b = f a) items others) :
    others.flatMap g = items.flatMap f := by
  induction h with
  | nil => rfl
  | cons hfirst _ ih => rw [List.flatMap_cons, List.flatMap_cons, hfirst, ih]

/-- What is first made of lists that correspond corresponds. -/
theorem rel_findSome? {α β γ δ : Type} {R : α → β → Prop} {S : γ → δ → Prop}
    {f : α → Option γ} {g : β → Option δ} {items : List α} {others : List β}
    (h : List.Forall₂ R items others) (hfg : ∀ a b, R a b → Option.Rel S (f a) (g b)) :
    Option.Rel S (items.findSome? f) (others.findSome? g) := by
  induction h with
  | nil => exact .none
  | @cons a b items others hab _ ih =>
    have hmade := hfg a b hab
    rw [List.findSome?_cons, List.findSome?_cons]
    generalize f a = made at hmade ⊢
    generalize g b = made' at hmade ⊢
    cases hmade with
    | none => exact ih
    | some hmade => exact .some hmade

/-- What is found first in lists that correspond corresponds. -/
theorem rel_find? {α β : Type} {R : α → β → Prop} {p : α → Bool} {q : β → Bool}
    {items : List α} {others : List β} (h : List.Forall₂ R items others)
    (hpq : ∀ a b, R a b → q b = p a) : Option.Rel R (items.find? p) (others.find? q) := by
  rw [List.find?_eq_findSome?_guard, List.find?_eq_findSome?_guard]
  refine rel_findSome? h fun a b hab => ?_
  rw [Option.guard, Option.guard, hpq a b hab]
  split
  · exact .some hab
  · exact .none

/-- Two searches one after the other. -/
theorem rel_or {α β : Type} {R : α → β → Prop} {a? b? : Option α} {a?' b?' : Option β}
    (h : Option.Rel R a? a?') (hb : Option.Rel R b? b?') :
    Option.Rel R (a?.or b?) (a?'.or b?') := by
  cases h with
  | none => exact hb
  | some hab => exact .some hab

/-! ## Items of a list -/

/-- What stands further on than an element stands behind it. -/
theorem mem_of_getElem?_append_cons {α : Type} {before behind : List α} {x y : α} {i : Nat}
    (hi : before.length < i) (h : (before ++ x :: behind)[i]? = some y) : y ∈ behind := by
  obtain ⟨n, rfl⟩ := Nat.exists_eq_add_of_lt hi
  rw [List.getElem?_append_right (by omega), Nat.add_assoc, Nat.add_sub_cancel_left,
    List.getElem?_cons_succ] at h
  exact List.mem_of_getElem? h

/-- What is false of the one list is false of the other. -/
theorem eq_false_of_map_eq {α β : Type} {f : α → Bool} {g : β → Bool} {l : List α} {m : List β}
    (h : l.map f = m.map g) (hg : ∀ b ∈ m, g b = false) : ∀ a ∈ l, f a = false := by
  intro a ha
  have hmem := List.mem_map_of_mem (f := f) ha
  rw [h] at hmem
  obtain ⟨b, hb, hsame⟩ := List.mem_map.mp hmem
  rw [← hsame]
  exact hg b hb

/-- If at most one item will do, the order of the items is of no account in the search
for it. -/
theorem find?_eq_of_perm {α : Type} {p : α → Bool} {items others : List α}
    (hperm : items.Perm others) (hone : items.Pairwise fun a b => p a = true → p b = true → False) :
    others.find? p = items.find? p := by
  -- among the items that will do no two stand one behind the other, in either order
  have hone : (items.filter p).Pairwise fun _ _ => False := List.pairwise_filter.mpr hone
  have hother := ((hperm.filter p).pairwise_iff fun h => h).mp hone
  rw [← List.head?_filter, ← List.head?_filter]
  refine congrArg List.head? ?_
  exact (List.Perm.eq_of_pairwise (fun _ _ _ _ h _ => False.elim h) hone hother
    (hperm.filter p)).symm

/-! ## Stretches -/

/-- Stretches of one size, one behind the other, make a stretch. -/
theorem flatMap_range_stretch {α : Type} (items : List α) (n m : Nat) :
    ((List.range m).flatMap fun i => (items.drop (i * n)).take n) = items.take (m * n) := by
  induction m with
  | zero => rw [Nat.zero_mul, List.take_zero, List.range_zero, List.flatMap_nil]
  | succ m ih =>
    rw [List.range_succ, List.flatMap_append, ih, List.flatMap_singleton, ← List.take_add,
      Nat.succ_mul]

/-- A stretch of the selected items begins at one of the items, and whatever is
selected from there on begins with the stretch. -/
theorem exists_append_of_stretch {α : Type} {p : α → Bool} {items others : List α} {first : α}
    {d n : Nat} (h : ((items.filter p).drop d).take n = first :: others) :
    ∃ before behind, items = before ++ first :: behind
      ∧ ((first :: behind).filter p).take n = first :: others := by
  obtain ⟨tail, htail⟩ : ∃ tail, (items.filter p).drop d = first :: tail := by
    cases hdrop : (items.filter p).drop d with
    | nil =>
      rw [hdrop, List.take_nil] at h
      cases h
    | cons other tail =>
      rw [hdrop] at h
      cases n with
      | zero => cases h
      | succ n =>
        cases h
        exact ⟨tail, rfl⟩
  have hsplit := List.take_append_drop d (items.filter p)
  rw [htail] at hsplit
  obtain ⟨low, high, rfl, -, hhigh⟩ := List.filter_eq_append_iff.mp hsplit.symm
  obtain ⟨skipped, behind, rfl, -, hfirst, hbehind⟩ := List.filter_eq_cons_iff.mp hhigh
  refine ⟨low ++ skipped, behind, (List.append_assoc _ _ _).symm, ?_⟩
  rw [List.filter_cons_of_pos hfirst, hbehind, ← htail, h]

end TwoPass
