import Mathlib.Data.Finset.Card
import Mathlib.Data.Finset.Dedup
import ProxyFleet.Locks

/-!
# Claims and the keys they hold

Claims outlive their hold on a key: whoever was given one can release it at any time, and again
later. What a table of locks reports follows from the past alone. A key is held just while a
claim on it was given out and not released since, and nothing that is done with other claims,
or again with one that is spent, changes that (`locks_follow_claims`).

The table can also be kept as a bare set of keys, if every claim carries a mark that it is spent
(`MarkedKeys`). Releasing by key is safe then because the marks keep step with the set.
-/

namespace ProxyFleet

/-- The claim that is given out next, if a key is free. -/
def Locks.nextClaim (l : Locks) (key : String) : Claim := ⟨key, l.given⟩

/-- The locks after a claim was given out. -/
def Locks.granted (l : Locks) (key : String) : Locks :=
  { held := l.held ++ [l.nextClaim key], given := l.given + 1 }

/-- The locks after a claim was given out and taken back. -/
def Locks.passed (l : Locks) : Locks := { l with given := l.given + 1 }

namespace Locks

variable {l : Locks} {key : String}

theorem isHeld_eq_false : l.isHeld key = false ↔ ∀ c ∈ l.held, c.key ≠ key := by
  simp [isHeld]

theorem isHeld_eq_true : l.isHeld key = true ↔ ∃ c ∈ l.held, c.key = key := by
  simp [isHeld]

theorem acquire_of_held (h : l.isHeld key = true) : l.acquire? key = none := by
  rw [acquire?, if_pos h]

theorem acquire_of_free (h : l.isHeld key = false) :
    l.acquire? key = some (l.nextClaim key, l.granted key) := by
  rw [acquire?, if_neg (by simp [h])]
  rfl

/-- A claim that is taken back leaves no trace in the table. -/
theorem release_granted (h : l.isHeld key = false) :
    (l.granted key).release (l.nextClaim key) = l.passed := by
  have hfree : ∀ c ∈ l.held, c ≠ l.nextClaim key := fun c hc heq =>
    isHeld_eq_false.1 h c hc (by rw [heq]; rfl)
  have hold : l.held.filter (· != l.nextClaim key) = l.held :=
    List.filter_eq_self.2 fun c hc => by simpa using hfree c hc
  simp only [release, granted, passed, List.filter_append, hold]
  simp

end Locks

/-! ## Histories -/

/-- What can be done with locks: a key is asked for, or a claim is released. The claim is any that
was given out before, found by its number, whether or not it was released already. -/
inductive LockMove where
  | acquire (key : String)
  | release (number : Nat)
  deriving DecidableEq, Repr

/-- The locks, the claims they gave out, in order, and the claims released since, in order. -/
structure LockHistory where
  locks : Locks
  claims : List Claim
  released : List Claim
  deriving Repr

namespace LockHistory

/-- Nothing was done yet. -/
def start : LockHistory := ⟨.empty, [], []⟩

/-- The history with one more move. Nobody can release a claim that was never given out. -/
def next (h : LockHistory) : LockMove → LockHistory
  | .acquire key =>
    match h.locks.acquire? key with
    | some (claim, locks) => { h with locks, claims := h.claims ++ [claim] }
    | none => h
  | .release number =>
    match h.claims[number]? with
    | some claim =>
      { h with locks := h.locks.release claim, released := h.released ++ [claim] }
    | none => h

/-- The history of some moves. -/
def after (moves : List LockMove) : LockHistory := moves.foldl next start

/-- The claims that were not released, in the order they were given out. -/
def outstanding (h : LockHistory) : List Claim := h.claims.filter (· ∉ h.released)

variable {h : LockHistory} {c : Claim} {key : String}

theorem mem_outstanding : c ∈ h.outstanding ↔ c ∈ h.claims ∧ c ∉ h.released := by
  simp [outstanding]

/-- How a table of locks goes with its past: the claims are numbered as they were given out, those
that hold their keys are the outstanding ones, and no two of these hold the same key. -/
structure Kept (h : LockHistory) : Prop where
  numbers : h.claims.map (·.number) = List.range h.locks.given
  released : ∀ c ∈ h.released, c ∈ h.claims
  held : h.locks.held = h.outstanding
  keys : (h.locks.held.map (·.key)).Nodup

namespace Kept

theorem start : Kept start := ⟨rfl, nofun, rfl, .nil⟩

/-- The next claim is none of those given out. -/
theorem nextClaim_notMem (hk : h.Kept) : h.locks.nextClaim key ∉ h.claims := by
  intro hmem
  have hnumber : h.locks.given ∈ h.claims.map (·.number) := List.mem_map.2 ⟨_, hmem, rfl⟩
  rw [hk.numbers] at hnumber
  exact absurd (List.mem_range.1 hnumber) (Nat.lt_irrefl _)

theorem claims_nodup (hk : h.Kept) : h.claims.Nodup :=
  .of_map (·.number) (hk.numbers ▸ List.nodup_range)

theorem isHeld_iff (hk : h.Kept) :
    h.locks.isHeld key = true ↔ ∃ c ∈ h.outstanding, c.key = key := by
  rw [Locks.isHeld_eq_true, hk.held]

/-- A claim that is given out holds its key and is outstanding. -/
theorem granted (hk : h.Kept) (hfree : h.locks.isHeld key = false) :
    Kept { h with
      locks := h.locks.granted key, claims := h.claims ++ [h.locks.nextClaim key] } where
  numbers := by
    change (h.claims ++ [h.locks.nextClaim key]).map (·.number) = List.range (h.locks.given + 1)
    rw [List.map_append, hk.numbers, List.range_succ]
    rfl
  released c hc := List.mem_append_left _ (hk.released c hc)
  held := by
    have hfresh : h.locks.nextClaim key ∉ h.released := fun hc =>
      hk.nextClaim_notMem (hk.released _ hc)
    change h.locks.held ++ [h.locks.nextClaim key] =
      (h.claims ++ [h.locks.nextClaim key]).filter (· ∉ h.released)
    rw [List.filter_append, hk.held, outstanding]
    simp [hfresh]
  keys := by
    change ((h.locks.held ++ [h.locks.nextClaim key]).map (·.key)).Nodup
    rw [List.map_append, List.nodup_append]
    refine ⟨hk.keys, List.nodup_singleton _, ?_⟩
    rintro _ hold _ hnew rfl
    obtain ⟨c, hc, heq⟩ := List.mem_map.1 hold
    exact Locks.isHeld_eq_false.1 hfree c hc (heq.trans (List.mem_singleton.1 hnew))

/-- A claim that is released holds nothing and is not outstanding. -/
theorem released_claim (hk : h.Kept) (hc : c ∈ h.claims) :
    Kept { h with locks := h.locks.release c, released := h.released ++ [c] } where
  numbers := hk.numbers
  released d hd := by
    rcases List.mem_append.1 hd with hd | hd
    · exact hk.released d hd
    · exact List.mem_singleton.1 hd ▸ hc
  held := by
    change h.locks.held.filter (· != c) = h.claims.filter (· ∉ h.released ++ [c])
    rw [hk.held, outstanding, List.filter_filter]
    refine List.filter_congr fun d _ => ?_
    rcases eq_or_ne d c with rfl | hne
    · simp
    · simp [hne]
  keys := hk.keys.sublist (List.filter_sublist.map _)

theorem next (hk : h.Kept) (m : LockMove) : (h.next m).Kept := by
  cases m with
  | acquire key =>
      cases hheld : h.locks.isHeld key with
      | true => simpa only [LockHistory.next, Locks.acquire_of_held hheld] using hk
      | false => simpa only [LockHistory.next, Locks.acquire_of_free hheld] using hk.granted hheld
  | release number =>
      cases hfound : h.claims[number]? with
      | none => simpa only [LockHistory.next, hfound] using hk
      | some c =>
          simpa only [LockHistory.next, hfound] using
            hk.released_claim (List.mem_of_getElem? hfound)

/-- Moves lead from a table that goes with its past to one that does. -/
theorem foldl (hk : h.Kept) (moves : List LockMove) : (moves.foldl LockHistory.next h).Kept := by
  induction moves generalizing h with
  | nil => exact hk
  | cons m moves ih => exact ih (hk.next m)

theorem after (moves : List LockMove) : (after moves).Kept := start.foldl moves

/-- A claim that is released again changes nothing. -/
theorem release_spent (hk : h.Kept) (hc : c ∈ h.released) : h.locks.release c = h.locks := by
  have hall : ∀ d ∈ h.locks.held, (d != c) = true := by
    intro d hd
    rw [hk.held, mem_outstanding] at hd
    exact bne_iff_ne.2 fun heq => hd.2 (heq ▸ hc)
  rw [Locks.release, List.filter_eq_self.2 hall]

/-- A claim that holds its key is the only one that does. -/
theorem eq_of_key (hk : h.Kept) {d : Claim} (hc : c ∈ h.outstanding) (hd : d ∈ h.outstanding)
    (hkey : c.key = d.key) : c = d :=
  List.inj_on_of_nodup_map hk.keys (hk.held ▸ hc) (hk.held ▸ hd) hkey

/-- A claim that is released frees its own key and no other. -/
theorem isHeld_release (hk : h.Kept) (hc : c ∈ h.outstanding) :
    (h.locks.release c).isHeld key = true ↔ h.locks.isHeld key = true ∧ key ≠ c.key := by
  have hmem : ∀ d, d ∈ (h.locks.release c).held ↔ d ∈ h.outstanding ∧ d ≠ c := by
    simp [Locks.release, hk.held]
  rw [Locks.isHeld_eq_true, hk.isHeld_iff]
  constructor
  · rintro ⟨d, hd, rfl⟩
    obtain ⟨hd, hne⟩ := (hmem d).1 hd
    exact ⟨⟨d, hd, rfl⟩, fun hkey => hne (hk.eq_of_key hd hc hkey)⟩
  · rintro ⟨⟨d, hd, rfl⟩, hne⟩
    exact ⟨d, (hmem d).2 ⟨hd, fun heq => hne (congrArg Claim.key heq)⟩, rfl⟩

end Kept

end LockHistory

/-! ## Keys and marks -/

/-- The keys that are taken, and the key of every claim given out, in order, with a mark whether
the claim is spent. -/
structure MarkedKeys where
  keys : List String
  claims : List (String × Bool)
  deriving DecidableEq, Repr

namespace MarkedKeys

/-- Takes a key, if it is free. -/
def acquire? (k : MarkedKeys) (key : String) : Option MarkedKeys :=
  if k.keys.contains key then none else some ⟨k.keys ++ [key], k.claims ++ [(key, false)]⟩

/-- One more move: who releases a claim that is not spent frees whatever holds its key. -/
def next (k : MarkedKeys) : LockMove → MarkedKeys
  | .acquire key => (k.acquire? key).getD k
  | .release number =>
    match k.claims[number]? with
    | some (key, false) => ⟨k.keys.filter (· != key), k.claims.set number (key, true)⟩
    | _ => k

/-- The keys after some moves. -/
def after (moves : List LockMove) : MarkedKeys := moves.foldl next ⟨[], []⟩

/-- The keys are those of the claims that hold one, and the spent claims are marked. -/
structure Shows (k : MarkedKeys) (h : LockHistory) : Prop where
  keys : k.keys = h.locks.held.map (·.key)
  claims : k.claims = h.claims.map fun c => (c.key, decide (c ∈ h.released))

namespace Shows

open LockHistory

variable {k : MarkedKeys} {h : LockHistory}

theorem contains (hs : k.Shows h) (key : String) :
    k.keys.contains key = h.locks.isHeld key := by
  rw [hs.keys, Bool.eq_iff_iff, List.contains_iff_mem, List.mem_map, Locks.isHeld_eq_true]

theorem acquire (hs : k.Shows h) (hk : h.Kept) (key : String) :
    (k.next (.acquire key)).Shows (h.next (.acquire key)) := by
  have hcontains := hs.contains key
  cases hheld : h.locks.isHeld key with
  | true =>
      simpa only [MarkedKeys.next, MarkedKeys.acquire?, LockHistory.next,
        Locks.acquire_of_held hheld, hcontains, hheld, if_true, Option.getD_none] using hs
  | false =>
      have hfresh : h.locks.nextClaim key ∉ h.released := fun hc =>
        hk.nextClaim_notMem (hk.released _ hc)
      have hkey : (h.locks.nextClaim key).key = key := rfl
      simp only [MarkedKeys.next, MarkedKeys.acquire?, LockHistory.next,
        Locks.acquire_of_free hheld, hcontains, hheld]
      exact ⟨by rw [hs.keys]; simp [Locks.granted, hkey],
        by rw [hs.claims]; simp [hfresh, hkey]⟩

/-- To free a key is to take the claim away that holds it. -/
theorem filter_keys (hk : h.Kept) {c : Claim} (hc : c ∈ h.outstanding) :
    (h.locks.held.map (·.key)).filter (· != c.key) = (h.locks.release c).held.map (·.key) := by
  rw [List.filter_map, Locks.release]
  refine congrArg _ (List.filter_congr fun d hd => ?_)
  rw [hk.held] at hd
  have hiff : d.key ≠ c.key ↔ d ≠ c := (Iff.intro (hk.eq_of_key hd hc) (congrArg Claim.key)).not
  rw [Function.comp_apply, Bool.eq_iff_iff, bne_iff_ne, bne_iff_ne, hiff]

/-- To mark a claim is to count it among those released. -/
theorem set_mark (hk : h.Kept) {c : Claim} {number : Nat} (hfound : h.claims[number]? = some c) :
    (h.claims.map fun d => (d.key, decide (d ∈ h.released))).set number (c.key, true) =
      h.claims.map fun d => (d.key, decide (d ∈ h.released ++ [c])) := by
  obtain ⟨hlt, hc⟩ := List.getElem?_eq_some_iff.1 hfound
  refine List.ext_getElem (by simp) fun i hi _ => ?_
  rw [List.length_set, List.length_map] at hi
  rw [List.getElem_set, List.getElem_map, List.getElem_map]
  split
  · next heq =>
      subst heq
      simp [hc]
  · next hne =>
      have hother : h.claims[i] ≠ c := fun heq =>
        hne ((hk.claims_nodup.getElem_inj_iff).1 (hc.trans heq.symm))
      simp [hother]

theorem release (hs : k.Shows h) (hk : h.Kept) (number : Nat) :
    (k.next (.release number)).Shows (h.next (.release number)) := by
  have hmarked : k.claims[number]? =
      h.claims[number]?.map fun c => (c.key, decide (c ∈ h.released)) := by
    rw [hs.claims, List.getElem?_map]
  cases hfound : h.claims[number]? with
  | none =>
      rw [hfound] at hmarked
      simpa only [MarkedKeys.next, LockHistory.next, hmarked, hfound, Option.map_none] using hs
  | some c =>
      rw [hfound, Option.map_some] at hmarked
      by_cases hspent : c ∈ h.released
      · simp only [MarkedKeys.next, LockHistory.next, hmarked, hfound, hspent, decide_true]
        refine ⟨by rw [hs.keys, hk.release_spent hspent], ?_⟩
        rw [hs.claims]
        refine List.map_congr_left fun d _ => ?_
        rcases eq_or_ne d c with rfl | hne
        · simp [hspent]
        · simp [hne]
      · have hc : c ∈ h.outstanding := mem_outstanding.2 ⟨List.mem_of_getElem? hfound, hspent⟩
        simp only [MarkedKeys.next, LockHistory.next, hmarked, hfound, hspent, decide_false]
        exact ⟨by rw [hs.keys, filter_keys hk hc], by rw [hs.claims, set_mark hk hfound]⟩

theorem foldl (hs : k.Shows h) (hk : h.Kept) (moves : List LockMove) :
    (moves.foldl MarkedKeys.next k).Shows (moves.foldl LockHistory.next h) := by
  induction moves generalizing k h with
  | nil => exact hs
  | cons m moves ih =>
      refine ih ?_ (hk.next m)
      cases m with
      | acquire key => exact hs.acquire hk key
      | release number => exact hs.release hk number

end Shows

/-- The same moves leave the same keys taken and the same claims spent, whether claims hold their
keys or keys are freed by name. -/
theorem after_shows (moves : List LockMove) : (after moves).Shows (LockHistory.after moves) :=
  Shows.foldl ⟨rfl, rfl⟩ .start moves

theorem isSome_acquire {k : MarkedKeys} {key : String} :
    (k.acquire? key).isSome = true ↔ key ∉ k.keys := by
  simp [acquire?]

end MarkedKeys

/-- Whatever was done with locks before, with claims released late or again: a key can be taken
just if every claim on it that was given out was released. All claims given out are different.
One that is released again changes nothing, and one that is released for the first time frees its
own key and no other. The keys that are reported as taken, and their number, are those of the
claims not released. And a bare set of keys whose claims are marked when they are spent holds the
same keys, and gives out just those that are not among them. -/
theorem locks_follow_claims (moves : List LockMove) :
    let h := LockHistory.after moves
    (∀ key, (h.locks.acquire? key).isSome = true ↔
      ∀ c ∈ h.claims, c.key = key → c ∈ h.released) ∧
    (∀ key c l, h.locks.acquire? key = some (c, l) → c.key = key ∧ c ∉ h.claims) ∧
    h.claims.Nodup ∧
    (∀ c ∈ h.released, h.locks.release c = h.locks) ∧
    (∀ c ∈ h.outstanding, ∀ key,
      (h.locks.release c).isHeld key = true ↔ h.locks.isHeld key = true ∧ key ≠ c.key) ∧
    (∀ key, h.locks.isHeld key = true ↔ ∃ c ∈ h.outstanding, c.key = key) ∧
    h.locks.size = (h.outstanding.map (·.key)).toFinset.card ∧
    (MarkedKeys.after moves).keys = h.outstanding.map (·.key) ∧
    (∀ key, ((MarkedKeys.after moves).acquire? key).isSome = true ↔
      key ∉ h.outstanding.map (·.key)) := by
  intro h
  have hk : h.Kept := .after moves
  have hshown : (MarkedKeys.after moves).keys = h.outstanding.map (·.key) := by
    rw [(MarkedKeys.after_shows moves).keys, ← hk.held]
  refine ⟨fun key => ?_, fun key c l hc => ?_, hk.claims_nodup, fun c hc => hk.release_spent hc,
    fun c hc key => hk.isHeld_release hc, fun key => hk.isHeld_iff, ?_, hshown, fun key => ?_⟩
  · have hfree : (h.locks.acquire? key).isSome = true ↔ ¬h.locks.isHeld key = true := by
      cases hheld : h.locks.isHeld key with
      | true => simp [Locks.acquire_of_held hheld]
      | false => simp [Locks.acquire_of_free hheld]
    rw [hfree, hk.isHeld_iff]
    constructor
    · intro hnone c hc hkey
      by_contra hopen
      exact hnone ⟨c, LockHistory.mem_outstanding.2 ⟨hc, hopen⟩, hkey⟩
    · rintro hall ⟨c, hc, hkey⟩
      obtain ⟨hgiven, hopen⟩ := LockHistory.mem_outstanding.1 hc
      exact hopen (hall c hgiven hkey)
  · cases hheld : h.locks.isHeld key with
    | true => cases (Locks.acquire_of_held hheld).symm.trans hc
    | false =>
        cases (Locks.acquire_of_free hheld).symm.trans hc
        exact ⟨rfl, hk.nextClaim_notMem⟩
  · rw [← hk.held, List.toFinset_card_of_nodup hk.keys, List.length_map]
    rfl
  · rw [MarkedKeys.isSome_acquire, hshown]

/-- A claim that is released twice does not free its key for whoever holds it by then. -/
example :
    (LockHistory.after [.acquire "a", .release 0, .acquire "a", .release 0]).locks.isHeld "a" =
      true := by decide

end ProxyFleet
