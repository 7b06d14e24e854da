import ProxyFleet.Proofs.Store.View
import ProxyFleet.Proofs.Work.Services

/-!
# Times from outside as bounds

The bounds of a request for switch logs and the time at which a user runs out come from
outside and are kept as they were written. They are compared with the texts of instants,
so each of them counts as its cut (`Instant.WrittenTime.cut`), which is what it denotes if
it is written to the millisecond and in UTC. Otherwise a log may be left out that was
made at the very bound, and a user may be served after its time has run out.
-/

namespace ProxyFleet

open Instant (WrittenTime InFourDigits)

/-! ## Switch logs -/

instance (w : WrittenTime) : Decidable w.IsStamp := inferInstanceAs (Decidable (_ ∧ _))

/-- An instant between two bounds, if each counts as its cut. -/
def WithinCuts (startAt endAt : Option WrittenTime) (t : Instant) : Prop :=
  (∀ w ∈ startAt, w.cut.milliseconds ≤ t.milliseconds) ∧
    ∀ w ∈ endAt, t.milliseconds < w.cut.milliseconds ∨
      w.IsStamp ∧ t.milliseconds = w.cut.milliseconds

instance (startAt endAt : Option WrittenTime) (t : Instant) :
    Decidable (WithinCuts startAt endAt t) := inferInstanceAs (Decidable (_ ∧ _))

/-- A log of the host that is asked for, and of the status, if one is. -/
def LogFilter.AsksFor (f : LogFilter) (r : SwitchLogRow) : Prop :=
  r.hostId = f.hostId ∧ ∀ status ∈ f.status, status = r.status.name

instance (f : LogFilter) (r : SwitchLogRow) : Decidable (f.AsksFor r) :=
  inferInstanceAs (Decidable (_ ∧ _))

theorem all_map_text_iff (bound : Option WrittenTime) (p : String → Bool) (q : WrittenTime → Prop)
    (h : ∀ w, p w.text = true ↔ q w) :
    (bound.map WrittenTime.text).all p = true ↔ ∀ w ∈ bound, q w := by
  cases bound with
  | none => simp
  | some w => simpa using h w

theorem LogFilter.keeps_iff {f : LogFilter} {r : SwitchLogRow} {startAt endAt : Option WrittenTime}
    {t : Instant} (hstart : f.startAt = startAt.map WrittenTime.text)
    (hend : f.endAt = endAt.map WrittenTime.text) (hr : r.createdAt = t.text)
    (ht : InFourDigits t.year) :
    f.keeps r = true ↔ f.AsksFor r ∧ WithinCuts startAt endAt t := by
  have hstatus : f.status.all (· == r.status.name) = true ↔
      ∀ status ∈ f.status, status = r.status.name := by
    cases f.status <;> simp
  have hfrom := all_map_text_iff startAt (textLe · t.text) _ fun w =>
    WrittenTime.textLe_text_iff ht
  have hupto := all_map_text_iff endAt (textLe t.text ·) _ fun w =>
    WrittenTime.text_textLe_iff ht
  rw [keeps, hstart, hend, hr, Bool.and_eq_true, Bool.and_eq_true, Bool.and_eq_true, beq_iff_eq,
    hstatus, hfrom, hupto, and_assoc]
  rfl

namespace Store

/-- The rows of a page are the logs within the cuts, each of them once, and the newest first. -/
theorem logRows_within {s : Store} {f : LogFilter} {startAt endAt : Option WrittenTime}
    {created : SwitchLogRow → Instant}
    (hlogs : ∀ r ∈ s.logs, r.createdAt = (created r).text ∧ InFourDigits (created r).year)
    (hstart : f.startAt = startAt.map WrittenTime.text)
    (hend : f.endAt = endAt.map WrittenTime.text) :
    (s.logRows f).Perm (s.logs.filter fun r =>
      decide (f.AsksFor r ∧ WithinCuts startAt endAt (created r))) ∧
    (s.logRows f).Pairwise fun r r' => (created r').milliseconds ≤ (created r).milliseconds := by
  have hfilter : s.logs.filter f.keeps = s.logs.filter fun r =>
      decide (f.AsksFor r ∧ WithinCuts startAt endAt (created r)) := by
    refine List.filter_congr fun r hr => ?_
    rw [Bool.eq_iff_iff, decide_eq_true_iff]
    exact LogFilter.keeps_iff hstart hend (hlogs r hr).1 (hlogs r hr).2
  refine ⟨?_, ?_⟩
  · rw [← hfilter]
    exact (sortBy_perm ..).trans (List.reverse_perm _)
  · have hmem : ∀ r ∈ s.logRows f, r ∈ s.logs := fun r hr =>
      List.mem_of_mem_filter (List.mem_reverse.1 ((mem_sortBy ..).1 hr))
    have hsorted : (s.logRows f).Pairwise fun r r' => textLe r'.createdAt r.createdAt = true :=
      pairwise_sortBy _ _ (fun _ _ _ hab hbc => textLe_trans _ _ _ hbc hab)
        fun a b => textLe_total b.createdAt a.createdAt
    refine hsorted.imp_of_mem fun {r r'} hr hr' hle => ?_
    obtain ⟨htext, hyear⟩ := hlogs r (hmem r hr)
    obtain ⟨htext', hyear'⟩ := hlogs r' (hmem r' hr')
    rw [htext, htext', textLe_iff, Instant.text_lt_iff hyear hyear'] at hle
    omega

end Store

/-! ## What is returned -/

/-- At any site, if the bounds of a request for switch logs and the times at which users run out
are times as ISO 8601 has them, then what is returned is within their cuts: a page is one of the
host's logs made at or after the cut of the first bound and before that of the last, the newest
first; the log made at the last cut itself belongs to them just if the bound is a stamp; and the
users that are served are those whose cuts are still to come. The cut of a stamp is what it
denotes, and of the times in UTC, the stamps are those that are compared as what they denote. -/
theorem times_count_as_cuts (a : Site) (r : LogsRequest) (startAt endAt : Option WrittenTime)
    (created : SwitchLogRow → Instant) (expiry : UserRow → Option WrittenTime)
    (hhost : isAllBlank r.filter.hostId = false)
    (hstart : r.filter.startAt = startAt.map WrittenTime.text)
    (hend : r.filter.endAt = endAt.map WrittenTime.text)
    (hlogs : ∀ l ∈ a.store.logs, l.createdAt = (created l).text ∧ InFourDigits (created l).year)
    (hnow : InFourDigits a.now.year)
    (husers : ∀ u ∈ a.store.users, u.expiresAt = (expiry u).map WrittenTime.text) :
    (∃ rows : List SwitchLogRow,
      (Work.getSwitchLogs r).runAt a = (.ok ⟨(Store.takeUpTo (pageSize r.limit)
        (Store.dropFirst (pageStart r.offset) rows)).map SwitchLogRow.toLog, rows.length⟩, a) ∧
      rows.Perm (a.store.logs.filter fun l =>
        decide (r.filter.AsksFor l ∧ WithinCuts startAt endAt (created l))) ∧
      rows.Pairwise fun l l' => (created l').milliseconds ≤ (created l).milliseconds) ∧
    (∀ groups u, u ∈ a.store.activeUsers groups a.now.text ↔
      ∃ row ∈ a.store.users, row.toUser = u ∧ row.enabled = true ∧
        (∃ g ∈ groups, row.groupId = some g) ∧
        ∀ w ∈ expiry row, a.now.milliseconds < w.cut.milliseconds) ∧
    ∀ w : WrittenTime, (w.IsStamp → (w.cut.milliseconds : ℚ) = w.denoted) ∧
      (w.zone = .utc → (w.CountsAsDenoted ↔ w.IsStamp)) := by
  refine ⟨⟨a.store.logRows r.filter, ?_, Store.logRows_within hlogs hstart hend⟩, ?_,
    fun w => ⟨fun hw => hw.cut_eq, WrittenTime.countsAsDenoted_iff⟩⟩
  · -- the number of all logs asked for comes from a query of its own
    have hlength : a.store.countLogs r.filter = (a.store.logRows r.filter).length := by
      rw [Store.countLogs, Store.logRows, (sortBy_perm ..).length_eq, List.length_reverse]
    rw [← hlength, Work.getSwitchLogs, hhost]
    rfl
  · intro groups u
    rw [Store.mem_activeUsers]
    refine exists_congr fun row => and_congr_right fun hrow => and_congr_right fun _ => ?_
    rw [Store.isActive_iff_before_cut hnow (husers row hrow), Store.isInGroup_iff, and_assoc,
      and_comm (a := ∃ g ∈ groups, _)]

namespace Traffic

/-- A second later than the start of the year 2026, written without a fraction. -/
def plainSecond : WrittenTime where
  second := 1767225601
  inFourDigits := ⟨by decide, by decide⟩
  fraction := []
  areDigits := nofun
  zone := .utc

/-- A run in which, at that second, a switch is logged, and a user is put in that runs out then. -/
def plainRun : List Action :=
  [.edit (.createHost ⟨"node", "10.0.0.1", "token", "", "", [], [], none⟩),
    .tick ⟨1767225601000⟩,
    .edit (.createLog ⟨"id-1", "switch", none, none, none, "xray", "", none⟩),
    .edit (.createUser ⟨"u", "ann@example.org", some "group", true, some plainSecond.text⟩)]

def plainSite : Site := ((start .standard ⟨0⟩ "token").after plainRun).site

def plainRequest : LogsRequest := ⟨⟨"id-1", none, some plainSecond.text, none⟩, none, none⟩

/-- A log made at the bound itself is left out, and a user is served at the moment it runs out. -/
theorem plain_second_misjudged :
    plainSecond.denoted = plainSite.now.milliseconds ∧
    plainSite.store.logs.map SwitchLogRow.createdAt = [plainSite.now.text] ∧
    ((Work.getSwitchLogs plainRequest).runAt plainSite).1 = .ok ⟨[], 0⟩ ∧
    plainSite.store.users.map UserRow.expiresAt = [some plainSecond.text] ∧
    (plainSite.store.activeUsers ["group"] plainSite.now.text).map NodeUser.email =
      ["ann@example.org"] := by
  refine ⟨?_, by decide +kernel⟩
  have hnow : plainSite.now.milliseconds = 1767225601000 := by decide +kernel
  have hnone : Decimal.ofDigits [] = 0 := rfl
  norm_num [hnow, WrittenTime.denoted, plainSecond, hnone, Instant.Zone.minutes]

/-- The cut of that time is a second later, so no log is within it and the user counts on. -/
theorem times_count_as_cuts_plain :
    plainSecond.cut = plainSite.now.later 1000 ∧
    (∃ rows : List SwitchLogRow,
      (Work.getSwitchLogs plainRequest).runAt plainSite = (.ok ⟨(Store.takeUpTo (pageSize none)
        (Store.dropFirst (pageStart none) rows)).map SwitchLogRow.toLog, rows.length⟩, plainSite) ∧
      rows.Perm (plainSite.store.logs.filter fun l =>
        decide (plainRequest.filter.AsksFor l ∧
          WithinCuts (some plainSecond) none plainSite.now))) ∧
    ∀ groups u, u ∈ plainSite.store.activeUsers groups plainSite.now.text ↔
      ∃ row ∈ plainSite.store.users, row.toUser = u ∧ row.enabled = true ∧
        (∃ g ∈ groups, row.groupId = some g) ∧
        ∀ w ∈ some plainSecond, plainSite.now.milliseconds < w.cut.milliseconds := by
  have hyear : InFourDigits plainSite.now.year := ⟨by decide +kernel, by decide +kernel⟩
  have hlogs : ∀ l ∈ plainSite.store.logs, l.createdAt = plainSite.now.text := by decide +kernel
  have husers : ∀ u ∈ plainSite.store.users, u.expiresAt = some plainSecond.text := by
    decide +kernel
  obtain ⟨⟨rows, hrun, hrows, -⟩, hactive, -⟩ := times_count_as_cuts plainSite plainRequest
    (some plainSecond) none (fun _ => plainSite.now) (fun _ => some plainSecond) (by decide) rfl rfl
    (fun l hl => ⟨hlogs l hl, hyear⟩) hyear husers
  exact ⟨by decide +kernel, ⟨rows, hrun, hrows⟩, hactive⟩

end Traffic

end ProxyFleet
