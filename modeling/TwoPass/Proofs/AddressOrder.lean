import TwoPass.Proofs.Lists
import TwoPass.Proofs.PlainLayout

/-!
# The order of addresses

Statements are placed one behind the other, so one would expect addresses to go
up with the lines. They do, up to a `START`: it moves the base to its origin
wherever that is, and nothing asks that it be the first statement. A program
that reaches its `START` late can therefore go back to memory it has used
already, and then two statements lie on top of each other.

The exact condition is local. `Statement.Follows` says how a statement lies to
the one before it, and `FirstPass.isChain_follows` that all of a program's
statements lie so. Only a step to a `START` can go back, so the addresses are in
order exactly if that one step does not (`FirstPass.addresses_ordered_iff`).
-/

namespace TwoPass

namespace Statement

/-- The address of a statement as a number. -/
def location? (s : Statement) : Option Nat := s.address.map Hex.value

/-- **One statement lies before another**, with all its bytes. -/
def LiesBefore (s t : Statement) : Prop :=
  ∀ a b, s.location? = some a → t.location? = some b → a + s.bytes ≤ b

/-- A statement takes the byte at `x`. -/
def Occupies (s : Statement) (x : Nat) : Prop :=
  ∃ a, s.location? = some a ∧ a ≤ x ∧ x < a + s.bytes

/-- **How a statement lies to the one before it**: unless it is a `START`, right
behind it, or at zero if that one has no address. -/
def Follows (s t : Statement) : Prop :=
  ∃ b, t.location? = some b
    ∧ (t.isStart = false → b = ((s.location?).map (· + s.bytes)).getD 0)

theorem LiesBefore.disjoint {s t : Statement} (h : s.LiesBefore t) (x : Nat) :
    ¬ (s.Occupies x ∧ t.Occupies x) := by
  rintro ⟨⟨a, ha, -, hxa⟩, b, hb, hbx, -⟩
  have := h a b ha hb
  omega

/-- What lies right behind a statement lies behind it. -/
theorem Follows.liesBefore {s t : Statement} (h : s.Follows t) (hs : t.isStart = false) :
    s.LiesBefore t := by
  obtain ⟨b, hb, hstep⟩ := h
  intro a b' ha hb'
  rw [hb] at hb'
  cases hb'
  rw [hstep hs, ha]
  exact le_rfl

/-- A statement with an address that lies behind another. Unlike `LiesBefore`
this can be chained, since nothing in between is without an address. -/
def Reaches (s t : Statement) : Prop :=
  (∃ b, t.location? = some b) ∧ s.LiesBefore t

instance : Trans Reaches Reaches Reaches where
  trans := by
    rintro s t u ⟨⟨b, hb⟩, hst⟩ ⟨⟨c, hc⟩, htu⟩
    refine ⟨⟨c, hc⟩, fun a c' ha hc' => ?_⟩
    rw [hc] at hc'
    cases hc'
    have h1 := hst a b ha hb
    have h2 := htu b c hb hc
    omega

end Statement

namespace Plain

/-- A statement in its place lies at the plain address of its line. -/
theorem Placed.location? {lines : List String} {k : Nat} {s : Statement}
    (h : Placed lines k s) : s.location? = address lines k := by
  obtain ⟨t, -, rfl⟩ := h
  show ((address lines k).map Hex.render).map Hex.value = address lines k
  rw [Option.map_map]
  cases address lines k with
  | none => rfl
  | some a => exact congrArg some (Hex.value_render a)

theorem Placed.isStart {lines : List String} {k : Nat} {s : Statement}
    (h : Placed lines k s) : s.isStart = isStart (textAt lines k) := by
  obtain ⟨t, hread, rfl⟩ := h
  show t.isStart = _
  exact isStart_of_read hread

theorem Placed.bytes {lines : List String} {k : Nat} {s : Statement}
    (h : Placed lines k s) : s.bytes = min (size (textAt lines k)) maxReserve := by
  obtain ⟨t, hread, rfl⟩ := h
  show t.bytes = _
  exact bytes_of_read hread

/-- Statements on two lines in a row follow each other. A size that was cut down
does not matter: behind it nothing fits but a `START`. -/
theorem Placed.follows {lines : List String} {k : Nat} {s t : Statement}
    (hs : Placed lines k s) (ht : Placed lines (k + 1) t)
    (hgood : ¬ Violates lines (k + 1)) : s.Follows t := by
  have hmax : maxReserve = 0xFFFFFFFF := rfl
  obtain ⟨b, hb⟩ : ∃ b, address lines (k + 1) = some b := by
    cases hb : address lines (k + 1) with
    | none => exact absurd (address_eq_none_iff.mp hb).1 (Nat.succ_ne_zero k)
    | some b => exact ⟨b, rfl⟩
  refine ⟨b, ht.location?.trans hb, fun hstart => ?_⟩
  have hle : b ≤ 0xFFFFFF := by
    by_contra hhigh
    exact hgood (.inr (.inr (.inr ⟨b, hb, Nat.lt_of_not_le hhigh⟩)))
  rw [address_eq, ← ht.isStart, hstart, reached, ← hs.location?] at hb
  rw [hs.bytes]
  cases ha : s.location? with
  | none =>
    rw [ha] at hb
    exact (Option.some.inj hb).symm
  | some a =>
    rw [ha] at hb
    have hsum : a + size (textAt lines k) = b := Option.some.inj hb
    rw [Nat.min_eq_left (by omega)]
    exact hsum.symm

end Plain

namespace FirstPass

variable {lines : List String} {statements : List Statement}

/-- **The statements of a program follow each other.** -/
theorem isChain_follows (h : (run lines).result = .ok statements) :
    statements.IsChain Statement.Follows := by
  obtain ⟨hgood, hlen, hall⟩ := run_plain h
  rw [List.isChain_iff_getElem]
  intro k hk
  have hs := hall k _ (List.getElem?_eq_getElem (Nat.lt_of_succ_lt hk))
  have ht := hall (k + 1) _ (List.getElem?_eq_getElem hk)
  exact hs.follows ht (hgood (k + 1) (hlen ▸ hk))

/-- If the step to a `START` does not go back, nothing does. -/
theorem pairwise_liesBefore (h : (run lines).result = .ok statements)
    (hstart : statements.IsChain fun s t => t.isStart = true → s.LiesBefore t) :
    statements.Pairwise Statement.LiesBefore := by
  have hfollows := isChain_follows h
  have hreaches : statements.IsChain Statement.Reaches := by
    rw [List.isChain_iff_getElem] at hfollows hstart ⊢
    intro k hk
    have hf := hfollows k hk
    obtain ⟨b, hb, -⟩ := id hf
    refine ⟨⟨b, hb⟩, ?_⟩
    cases hs : (statements[k + 1]).isStart with
    | true => exact hstart k hk hs
    | false => exact hf.liesBefore hs
  exact hreaches.pairwise.imp fun hst => hst.2

/-- The step from one line to a `START` goes forward exactly if the origin is no
lower than the end of the line. Cutting the size of the line down does not
change that. -/
theorem liesBefore_start_iff {k : Nat} {s t : Statement} (hs : Plain.Placed lines k s)
    (ht : Plain.Placed lines (k + 1) t) (hgood : ¬ Plain.Violates lines (k + 1))
    (hstart : Plain.isStart (Plain.textAt lines (k + 1)) = true) :
    s.LiesBefore t ↔ ∀ a, Plain.address lines k = some a →
      a + Plain.size (Plain.textAt lines k) ≤ Plain.origin (Plain.textAt lines (k + 1)) := by
  have hmax : maxReserve = 0xFFFFFFFF := rfl
  have hb : Plain.address lines (k + 1) = some (Plain.origin (Plain.textAt lines (k + 1))) := by
    rw [Plain.address_eq, if_pos hstart]
  have hle : Plain.origin (Plain.textAt lines (k + 1)) ≤ 0xFFFFFF := by
    by_contra hhigh
    exact hgood (.inr (.inr (.inr ⟨_, hb, Nat.lt_of_not_le hhigh⟩)))
  unfold Statement.LiesBefore
  rw [hs.location?, ht.location?, hb, hs.bytes]
  constructor
  · intro h a ha
    have := h a _ ha rfl
    omega
  · intro h a b ha hb
    cases hb
    have := h a ha
    omega

/-- **When addresses are in order.** The addresses of an accepted program go up
with its lines, every statement lying behind all earlier ones, exactly if a
`START` that has a line with an address before it gives an origin that is no
lower than the end of that line. No two statements then share a byte. -/
theorem addresses_ordered_iff (h : (run lines).result = .ok statements) :
    (statements.Pairwise Statement.LiesBefore ↔
        ∀ k, Plain.isStart (Plain.textAt lines (k + 1)) = true →
          ∀ a, Plain.address lines k = some a →
            a + Plain.size (Plain.textAt lines k)
              ≤ Plain.origin (Plain.textAt lines (k + 1)))
      ∧ (statements.Pairwise Statement.LiesBefore →
        statements.Pairwise fun s t => ∀ x, ¬ (s.Occupies x ∧ t.Occupies x)) := by
  obtain ⟨hgood, hlen, hall⟩ := run_plain h
  have hstep : ∀ k (hk : k + 1 < statements.length),
      Plain.isStart (Plain.textAt lines (k + 1)) = true →
        (statements[k].LiesBefore statements[k + 1] ↔
          ∀ a, Plain.address lines k = some a →
            a + Plain.size (Plain.textAt lines k)
              ≤ Plain.origin (Plain.textAt lines (k + 1))) :=
    fun k hk => liesBefore_start_iff
      (hall k _ (List.getElem?_eq_getElem (Nat.lt_of_succ_lt hk)))
      (hall (k + 1) _ (List.getElem?_eq_getElem hk)) (hgood (k + 1) (hlen ▸ hk))
  refine ⟨⟨fun hord k hs => ?_, fun hord => ?_⟩, fun hord => hord.imp fun hst => hst.disjoint⟩
  · by_cases hk : k + 1 < statements.length
    · exact (hstep k hk hs).mp
        (List.pairwise_iff_getElem.mp hord k (k + 1) _ hk (Nat.lt_succ_self k))
    · -- there is no such line, so it is no `START`
      have hempty : Plain.textAt lines (k + 1) = "" := by
        rw [Plain.textAt, List.getD_eq_getElem?_getD,
          List.getElem?_eq_none (by omega), Option.getD_none]
      rw [hempty] at hs
      exact absurd hs (by decide)
  · refine pairwise_liesBefore h (List.isChain_iff_getElem.mpr fun k hk hs => ?_)
    have ht := hall (k + 1) _ (List.getElem?_eq_getElem hk)
    rw [ht.isStart] at hs
    exact (hstep k hk hs).mpr (hord k hs)

/-- A `START` that goes forward, two lines into the program. -/
theorem addresses_ordered_forward_start :
    ∃ statements, (run ["LDA X", "A RESW 2", "P START 6", "B WORD 1"]).result = .ok statements
      ∧ statements.Pairwise Statement.LiesBefore := by
  have hok : (run ["LDA X", "A RESW 2", "P START 6", "B WORD 1"]).result.isOk = true := by
    decide +kernel
  obtain ⟨statements, h⟩ := exists_of_isOk hok
  refine ⟨statements, h, (addresses_ordered_iff h).1.mpr fun k hs a ha => ?_⟩
  match k with
  | 0 => exact absurd hs (by decide +kernel)
  | 1 =>
    have haddress : Plain.address ["LDA X", "A RESW 2", "P START 6", "B WORD 1"] 1 = some 0 := by
      decide +kernel
    rw [haddress] at ha
    cases ha
    decide +kernel
  | 2 => exact absurd hs (by decide +kernel)
  | k + 3 =>
    -- there is no such line
    have hend : Plain.isStart "" = true := hs
    exact absurd hend (by decide)

/-- **Addresses can go back.** A `START` in the middle of a program takes the
layout back to its origin, and two statements come to lie on the same bytes. -/
theorem late_start_goes_back :
    ∃ statements, (run ["LDA X", "LDA Y", "P START 0", "LDA Z"]).result = .ok statements
      ∧ ¬ statements.Pairwise Statement.LiesBefore
      ∧ ∃ s t, statements[1]? = some s ∧ statements[3]? = some t
        ∧ s.Occupies 0 ∧ t.Occupies 0 := by
  have hplaces : (run ["LDA X", "LDA Y", "P START 0", "LDA Z"]).result.toOption.map
      (List.map fun s => (s.location?, s.bytes))
        = some [(none, 3), (some 0, 3), (some 0, 0), (some 0, 3)] := by
    decide +kernel
  generalize (run ["LDA X", "LDA Y", "P START 0", "LDA Z"]).result = result at hplaces ⊢
  cases result with
  | error fault => cases hplaces
  | ok statements =>
    have hmap := Option.some.inj hplaces
    have hat : ∀ (k : Nat) (place : Option Nat × Nat),
        [(none, 3), (some 0, 3), (some 0, 0), (some 0, 3)][k]? = some place →
          ∃ s, statements[k]? = some s ∧ s.location? = place.1 ∧ s.bytes = place.2 := by
      intro k place hk
      rw [← hmap, List.getElem?_map, Option.map_eq_some_iff] at hk
      obtain ⟨s, hs, rfl⟩ := hk
      exact ⟨s, hs, rfl, rfl⟩
    obtain ⟨s, hs, hsloc, hsbytes⟩ := hat 1 _ rfl
    obtain ⟨u, hu, huloc, -⟩ := hat 2 _ rfl
    obtain ⟨t, ht, htloc, htbytes⟩ := hat 3 _ rfl
    refine ⟨statements, rfl, fun hord => ?_, s, t, hs, ht, ⟨0, hsloc, le_rfl, by omega⟩,
      ⟨0, htloc, le_rfl, by omega⟩⟩
    obtain ⟨h1, rfl⟩ := List.getElem?_eq_some_iff.mp hs
    obtain ⟨h2, rfl⟩ := List.getElem?_eq_some_iff.mp hu
    have hback := List.pairwise_iff_getElem.mp hord 1 2 h1 h2 (by decide) 0 0 hsloc huloc
    omega

end FirstPass

end TwoPass
