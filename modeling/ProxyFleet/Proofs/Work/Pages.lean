import ProxyFleet.Proofs.Run.Bounds

/-!
# Switch logs page by page

The listing of switch logs is sorted by the times at which they were made, and several
logs may have one time. What makes its pages fit together is that the order of these is
settled too. Rows do not say which of them was put in later, so a listing is told here by
the places its logs have in the table: a place is before another by time and place alone,
and that leaves no two places in either order.
-/

namespace ProxyFleet

open Number

/-- What a filter asks for, bounds of time included: times are compared as texts. -/
def LogFilter.Matches (f : LogFilter) (r : SwitchLogRow) : Prop :=
  f.AsksFor r ∧ (∀ t ∈ f.startAt, ¬ r.createdAt < t) ∧ ∀ t ∈ f.endAt, ¬ t < r.createdAt

theorem LogFilter.keeps_iff_matches {f : LogFilter} {r : SwitchLogRow} :
    f.keeps r = true ↔ f.Matches r := by
  have hstatus : f.status.all (· == r.status.name) = true ↔
      ∀ status ∈ f.status, status = r.status.name := by
    cases f.status <;> simp
  have hstart : f.startAt.all (textLe · r.createdAt) = true ↔
      ∀ t ∈ f.startAt, ¬ r.createdAt < t :=
    (Option.all_eq_true _ _).trans (forall₂_congr fun _ _ => textLe_iff)
  have hend : f.endAt.all (textLe r.createdAt ·) = true ↔ ∀ t ∈ f.endAt, ¬ t < r.createdAt :=
    (Option.all_eq_true _ _).trans (forall₂_congr fun _ _ => textLe_iff)
  rw [keeps, Bool.and_eq_true, Bool.and_eq_true, Bool.and_eq_true, beq_iff_eq, hstatus, hstart,
    hend, Matches, AsksFor, and_assoc]

namespace Store

/-! ## The listing -/

/-- The log at the first place was made later than that at the other, or at the same time and was
put in later. -/
def ListedBefore (logs : List SwitchLogRow) (j k : Fin logs.length) : Prop :=
  logs[k].createdAt < logs[j].createdAt ∨ logs[k].createdAt = logs[j].createdAt ∧ k < j

/-- The places of the logs asked for, in the order in which they are listed. -/
def listing (s : Store) (f : LogFilter) : List (Fin s.logs.length) :=
  sortBy (fun j k => textLe s.logs[k].createdAt s.logs[j].createdAt)
    ((List.finRange s.logs.length).filter fun k => f.keeps s.logs[k]).reverse

variable {s : Store} {f : LogFilter}

theorem map_listing : (s.listing f).map (fun k => s.logs[k]) = s.logRows f := by
  have hrows : ((List.finRange s.logs.length).filter fun k => f.keeps s.logs[k]).map
      (fun k => s.logs[k]) = s.logs.filter f.keeps := by
    have hall : (List.finRange s.logs.length).map (fun k => s.logs[k]) = s.logs :=
      List.map_get_finRange s.logs
    conv_rhs => rw [← hall, List.filter_map]
    rfl
  rw [listing, sortBy, logRows, sortBy, ← hrows, ← List.map_reverse]
  exact List.map_mergeSort fun _ _ _ _ => rfl

theorem mem_listing {k : Fin s.logs.length} : k ∈ s.listing f ↔ f.Matches s.logs[k] := by
  rw [listing, mem_sortBy, List.mem_reverse, List.mem_filter, LogFilter.keeps_iff_matches]
  exact and_iff_right (List.mem_finRange k)

theorem pairwise_listing : (s.listing f).Pairwise (ListedBefore s.logs) := by
  have hplaces : ((List.finRange s.logs.length).filter fun k => f.keeps s.logs[k]).reverse.Pairwise
      fun j k => k < j :=
    List.pairwise_reverse.2 ((List.pairwise_lt_finRange _).filter _)
  have hsorted := pairwise_sortBy_ties
    (fun j k : Fin s.logs.length => textLe s.logs[k].createdAt s.logs[j].createdAt) _
    (fun j k l hjk hkl => textLe_trans _ _ _ hkl hjk)
    (fun j k => textLe_total s.logs[k].createdAt s.logs[j].createdAt) hplaces
  refine hsorted.imp fun {j k} hjk => ?_
  obtain ⟨hle, hties⟩ := hjk
  by_cases hback : textLe s.logs[j].createdAt s.logs[k].createdAt = true
  · exact Or.inr ⟨textLe_antisymm hle hback, hties hback⟩
  · refine Or.inl ?_
    rw [textLe_iff, not_not] at hback
    exact hback

theorem nodup_listing : (s.listing f).Nodup := by
  refine pairwise_listing.imp fun {j k} hbefore heq => ?_
  rw [heq] at hbefore
  exact hbefore.elim (String.lt_irrefl _) fun h => lt_irrefl k h.2

theorem length_listing : (s.listing f).length = s.countLogs f := by
  have hrows : (s.listing f).length = (s.logRows f).length := by
    rw [← map_listing, List.length_map]
  rw [hrows, logRows, (sortBy_perm ..).length_eq, List.length_reverse, countLogs]

/-! ## Pages -/

section Windows

variable {α : Type} {n : Nat} (rows : List α)

theorem takeUpTo_of_toInt? {limit : Number} (h : limit.toInt? = some (n : Int)) :
    takeUpTo limit rows = rows.take n := by
  rw [takeUpTo, h]
  exact if_neg (Int.not_lt.2 (Int.natCast_nonneg n))

theorem dropFirst_of_toInt? {offset : Number} (h : offset.toInt? = some (n : Int)) :
    dropFirst offset rows = rows.drop n := by
  rw [dropFirst, h]
  rfl

end Windows

theorem findLogs_page {size start : Number} {n m : Nat} (hsize : size.toInt? = some (n : Int))
    (hstart : start.toInt? = some (m : Int)) : s.findLogs f (some size) (some start) =
      (((s.listing f).drop m).take n).map fun k => s.logs[k].toLog := by
  rw [findLogs, ← map_listing, Option.getD_some, Option.getD_some, dropFirst_of_toInt? _ hstart,
    takeUpTo_of_toInt? _ hsize, ← List.map_drop, ← List.map_take, List.map_map]
  rfl

end Store

/-- Pages of one size, one after the other, are the items from the first on. -/
theorem flatMap_pages {α : Type} (items : List α) (n : Nat) : ∀ pages : Nat,
    (List.range pages).flatMap (fun k => (items.drop (k * n)).take n) = items.take (pages * n)
  | 0 => by rw [Nat.zero_mul]; rfl
  | pages + 1 => by
    rw [List.range_succ, List.flatMap_append, flatMap_pages items n pages, List.flatMap_singleton,
      Nat.succ_mul, List.take_add]

namespace Number

theorem toInt?_eq_some {n : Number} {z : Int} (h : n.toInt? = some z) :
    n = finite (z * unitsPerOne) := by
  cases n with
  | finite u =>
    rw [toInt?] at h
    split at h
    · next hdvd =>
      injection h with h
      rw [← h, Int.ediv_mul_cancel (Int.dvd_of_emod_eq_zero hdvd)]
    · cases h
  | _ => cases h

theorem trunc_of_toInt? {n : Number} {z : Int} (h : n.toInt? = some z) : n.trunc = n :=
  trunc_eq_self (by rw [isWhole, h]; rfl)

theorem lt_finite {u v : Int} : (finite u).lt (finite v) = true ↔ u < v := decide_eq_true_iff

theorem le_finite {u v : Int} : (finite u).le (finite v) = true ↔ u ≤ v := by
  have heq : (finite u).eq (finite v) = true ↔ u = v := by
    rw [eq, decide_eq_true_iff, finite.injEq]
    rintro ⟨⟩
  rw [le, Bool.or_eq_true, lt_finite, heq]
  exact Int.le_iff_lt_or_eq.symm

end Number

theorem pageSize_of_toInt? {size : Number} {n : Nat} (hsize : size.toInt? = some (n : Int))
    (hn : 1 ≤ n) (hmax : n ≤ 200) : pageSize (some size) = size := by
  have hzero : (0 : Number) = .finite 0 := by decide +kernel
  have hlimit : maxPageSize = .finite (200 * unitsPerOne) := by decide +kernel
  have hunits : (0 : Int) < unitsPerOne := Int.natCast_pos.2 unitsPerOne_pos
  have htrunc := trunc_of_toInt? hsize
  rw [toInt?_eq_some hsize] at htrunc ⊢
  rw [pageSize, hzero, htrunc, hlimit, if_neg, if_neg]
  · rw [lt_finite, not_lt]
    exact Int.mul_le_mul_of_nonneg_right (by omega) hunits.le
  · rw [le_finite, not_le]
    exact Int.mul_pos (by omega) hunits

theorem pageStart_of_toInt? {start : Number} {n : Nat} (hstart : start.toInt? = some (n : Int)) :
    pageStart (some start) = start := by
  have hzero : (0 : Number) = .finite 0 := by decide +kernel
  have hunits : (0 : Int) < unitsPerOne := Int.natCast_pos.2 unitsPerOne_pos
  have htrunc := trunc_of_toInt? hstart
  rw [toInt?_eq_some hstart] at htrunc ⊢
  rw [pageStart, hzero, htrunc, if_neg]
  rw [lt_finite, not_lt]
  exact Int.mul_nonneg (by omega) hunits.le

namespace Work

variable {a : Site} {f : LogFilter}

theorem getSwitchLogs_blank (hhost : isAllBlank f.hostId = true) (limit offset : Option Number) :
    (getSwitchLogs ⟨f, limit, offset⟩).runAt a =
      (.error (.failure (.invalid .hostIdRequired)), a) := by
  rw [getSwitchLogs, hhost]
  rfl

theorem getSwitchLogs_page {size start : Number} {n m : Nat}
    (hhost : isAllBlank f.hostId = false) (hn : 1 ≤ n) (hmax : n ≤ 200)
    (hsize : size.toInt? = some (n : Int)) (hstart : start.toInt? = some (m : Int)) :
    (getSwitchLogs ⟨f, some size, some start⟩).runAt a =
      (.ok ⟨(((a.store.listing f).drop m).take n).map fun k => a.store.logs[k].toLog,
        (a.store.listing f).length⟩, a) := by
  have hpage : a.store.logsPage ⟨f, some size, some start⟩ =
      ⟨(((a.store.listing f).drop m).take n).map fun k => a.store.logs[k].toLog,
        (a.store.listing f).length⟩ := by
    rw [Store.logsPage, pageSize_of_toInt? hsize hn hmax, pageStart_of_toInt? hstart,
      Store.findLogs_page hsize hstart, Store.length_listing]
  rw [getSwitchLogs, hhost, ← hpage]
  rfl

end Work

/-- The logs of a filter have one order, strictly by time and then by place in the table, and the
places of just the logs that match are in it. A host without a name is refused. For any other, and
for pages of any size from 1 to 200, every page that begins at 0, or at a multiple of the size up
to the number of matching logs, is given, leaves the site as it was and tells that number; and
the pages, one after the other, are the logs at those places. -/
theorem pages_list_each_once (a : Site) (f : LogFilter) :
    ∃ places : List (Fin a.store.logs.length),
      places.Nodup ∧ places.Pairwise (Store.ListedBefore a.store.logs) ∧
      (∀ k, k ∈ places ↔ f.Matches a.store.logs[k]) ∧
      (isAllBlank f.hostId = true → ∀ limit offset,
        (Work.getSwitchLogs ⟨f, limit, offset⟩).runAt a =
          (.error (.failure (.invalid .hostIdRequired)), a)) ∧
      (isAllBlank f.hostId = false → ∀ (n : Nat) (size : Number) (start : Nat → Number),
        1 ≤ n → n ≤ 200 → size.toInt? = some (n : Int) →
        (∀ k, k * n ≤ places.length → (start k).toInt? = some ((k * n : Nat) : Int)) →
        ∃ pages : List LogsPage,
          (List.range (places.length / n + 1)).map (fun k =>
            (Work.getSwitchLogs ⟨f, some size, some (start k)⟩).runAt a) =
              pages.map (fun p => (.ok p, a)) ∧
          pages.flatMap LogsPage.logs = places.map (fun k => a.store.logs[k].toLog) ∧
          ∀ p ∈ pages, p.total = places.length) := by
  refine ⟨a.store.listing f, Store.nodup_listing, Store.pairwise_listing,
    fun k => Store.mem_listing, Work.getSwitchLogs_blank, ?_⟩
  intro hhost n size start hn hmax hsize hstart
  -- the last page begins where another one would be past all logs
  have hlast : ∀ k ∈ List.range ((a.store.listing f).length / n + 1),
      k * n ≤ (a.store.listing f).length := fun k hk =>
    Nat.mul_le_of_le_div _ _ _ (Nat.lt_succ_iff.1 (List.mem_range.1 hk))
  refine ⟨(List.range ((a.store.listing f).length / n + 1)).map fun k =>
    ⟨(((a.store.listing f).drop (k * n)).take n).map fun k => a.store.logs[k].toLog,
      (a.store.listing f).length⟩, ?_, ?_, ?_⟩
  · rw [List.map_map]
    exact List.map_congr_left fun k hk =>
      Work.getSwitchLogs_page hhost hn hmax hsize (hstart k (hlast k hk))
  · have hall : (a.store.listing f).length ≤ ((a.store.listing f).length / n + 1) * n := by
      rw [Nat.mul_comm]
      exact (Nat.lt_mul_div_succ _ hn).le
    rw [List.flatMap_map, ← List.map_flatMap, flatMap_pages, List.take_of_length_le hall]
  · intro p hp
    obtain ⟨k, -, rfl⟩ := List.mem_map.1 hp
    rfl

namespace Traffic

/-- A run in which two switches are logged at one moment and a third a second later. -/
def tiedRun : List Action :=
  [.edit (.createHost ⟨"node", "10.0.0.1", "token", "", "", [], [], none⟩),
    .edit (.createLog ⟨"id-1", "first", none, none, none, "xray", "", none⟩),
    .edit (.createLog ⟨"id-1", "second", none, none, none, "xray", "", none⟩),
    .tick ⟨1000⟩,
    .edit (.createLog ⟨"id-1", "third", none, none, none, "xray", "", none⟩)]

def tiedSite : Site := ((start .standard ⟨0⟩ "token").after tiedRun).site

def tiedFilter : LogFilter := ⟨"id-1", none, none, none⟩

def tiedPage (k : Nat) : Except Problem LogsPage × Site :=
  (Work.getSwitchLogs ⟨tiedFilter, some 2, some (Number.ofInt ((k * 2 : Nat) : Int))⟩).runAt
    tiedSite

/-- On pages of two logs, the border falls between the two logs of one moment. -/
theorem pages_list_each_once_tied :
    ∃ places : List (Fin tiedSite.store.logs.length),
      places.length = 3 ∧ places.Pairwise (Store.ListedBefore tiedSite.store.logs) ∧
      ∃ pages : List LogsPage,
        (List.range 2).map tiedPage = pages.map (fun p => (.ok p, tiedSite)) ∧
        pages.flatMap LogsPage.logs = places.map (fun k => tiedSite.store.logs[k].toLog) ∧
        ∀ p ∈ pages, p.total = 3 := by
  obtain ⟨places, hnodup, hordered, hmem, -, hpages⟩ := pages_list_each_once tiedSite tiedFilter
  have hkeeps : ∀ k : Fin tiedSite.store.logs.length,
      tiedFilter.keeps tiedSite.store.logs[k] = true := by decide +kernel
  have hplaces : places.Perm (List.finRange tiedSite.store.logs.length) := by
    rw [List.perm_ext_iff_of_nodup hnodup (List.nodup_finRange _)]
    exact fun k => iff_of_true ((hmem k).2 (LogFilter.keeps_iff_matches.1 (hkeeps k)))
      (List.mem_finRange k)
  have hthree : places.length = 3 := by
    rw [hplaces.length_eq, List.length_finRange]
    decide +kernel
  obtain ⟨pages, hrun, hlogs, htotal⟩ := hpages (by decide +kernel) 2 2
    (fun k => Number.ofInt ((k * 2 : Nat) : Int)) (by decide) (by decide) (by decide +kernel) (by
      intro k hk
      rw [hthree] at hk
      obtain rfl | rfl : k = 0 ∨ k = 1 := by omega
      · decide +kernel
      · decide +kernel)
  rw [hthree] at hrun htotal
  exact ⟨places, hthree, hordered, pages, hrun, hlogs, htotal⟩

end Traffic

end ProxyFleet
