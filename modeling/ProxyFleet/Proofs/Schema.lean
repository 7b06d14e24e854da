import ProxyFleet.Schema

/-!
# Databases that are left alone

Preparing a database does one of two things: it refuses, and then version, tables and indexes are
what they were, or it goes through. Either way nothing changes any more after the first time, and
each further time comes to the same (`prepare_again`, `prepareTimes_succ`). Which of the two is
decided by the version and by the tables that count as a user's.

What counts is not what is. A user can create a table of every name that is not reserved, but
tables are passed over whose name merely looks reserved: `sqlite` and one more character, which
need not be the underscore (`isInternal_of_isReserved`, and not the other way round). A database
without a version that has such tables and no others is taken for an empty one (`Overlooked`).
-/

namespace ProxyFleet

namespace Catalog

variable {c : Catalog}

/-- Names that no table of a user can have: `sqlite_`, in letters of either case, and whatever
follows. -/
def isReserved (name : String) : Bool :=
  (name.toList.take 7).map Char.toLower == "sqlite_".toList

/-- A database that is not for us to touch: it comes from a later version, or it has no version and
a user has created tables in it. -/
def Foreign (c : Catalog) : Prop :=
  schemaVersion < c.version ∨
    c.version < schemaVersion ∧ ∃ name ∈ c.tables, isReserved name = false

/-- A database without a version and with tables of a user, all of which look like the database's
own. -/
def Overlooked (c : Catalog) : Prop :=
  c.version < schemaVersion ∧ (∃ name ∈ c.tables, isReserved name = false) ∧
    ∀ name ∈ c.tables, isInternal name = true

/-- A database in which no user has created anything. -/
def Untouched (c : Catalog) : Prop :=
  (∀ name ∈ c.tables, isReserved name = true) ∧ ∀ name ∈ c.indexes, isReserved name = true

/-- The failure of preparing a database that is refused. -/
def refusal (c : Catalog) : Failure :=
  .internal (if schemaVersion < c.version then .schemaTooNew c.version else .schemaForeign) 500
    (some "SCHEMA_VERSION")

/-- The database with references checked. -/
def checked (c : Catalog) : Catalog := { c with checksReferences := true }

/-- The database with its version and with everything of the schema that it does not have yet. -/
def equipped (c : Catalog) : Catalog where
  version := schemaVersion
  tables := addMissing c.tables schemaTables
  indexes := addMissing c.indexes schemaIndexes
  checksReferences := true

/-! ## Names -/

theorem isInternal_of_isReserved {name : String} (h : isReserved name = true) :
    isInternal name = true := by
  have hletters : (name.toList.take 7).map Char.toLower = "sqlite_".toList := eq_of_beq h
  have hlength : (name.toList.take 7).length = 7 := by
    have := congrArg List.length hletters
    rwa [List.length_map] at this
  have hlong : 7 ≤ name.toList.length := by
    rw [List.length_take] at hlength
    omega
  have hsix : (name.toList.take 6).map Char.toLower = "sqlite".toList := by
    have := congrArg (List.take 6) hletters
    rwa [← List.map_take, List.take_take] at this
  have hmore : name.toList.length > 6 := hlong
  rw [isInternal, hsix, decide_eq_true hmore]
  rfl

theorem userTables_eq_nil_iff :
    c.userTables = [] ↔ ∀ name ∈ c.tables, isInternal name = true := by
  simp [userTables, List.filter_eq_nil_iff]

theorem isInternal_schemaTables : schemaTables.all (!isInternal ·) = true := by
  decide

theorem isInternal_schemaIndexes : schemaIndexes.all (!isInternal ·) = true := by
  decide

/-- What looks like the database's own is not in the way of the schema. -/
theorem addMissing_of_internal {names more : List String}
    (hnames : ∀ name ∈ names, isInternal name = true)
    (hmore : more.all (!isInternal ·) = true) : addMissing names more = names ++ more := by
  have hnew : ∀ name ∈ more, (!names.contains name) = true := by
    intro name hname
    have hplain : isInternal name = false := by simpa using List.all_eq_true.1 hmore name hname
    rw [Bool.not_eq_true', List.contains_eq_mem, decide_eq_false_iff_not]
    intro hmem
    rw [hnames name hmem] at hplain
    cases hplain
  rw [addMissing, List.filter_eq_self.2 hnew]

/-! ## Once -/

theorem prepare_newer (h : schemaVersion < c.version) :
    c.prepare = (.error c.refusal, c.checked) := by
  rw [prepare, if_neg (by omega), if_pos h, refusal, if_pos h, checked]

theorem prepare_older (h : c.version < schemaVersion) :
    c.prepare = if c.userTables = [] then (.ok (), c.equipped)
      else (.error c.refusal, c.checked) := by
  have hnewer : ¬ schemaVersion < c.version := by omega
  rw [prepare, if_neg (by omega), if_neg hnewer, refusal, if_neg hnewer, equipped, checked]
  cases c.userTables <;> rfl

theorem prepare_current (h : c.version = schemaVersion) : c.prepare = (.ok (), c.checked) := by
  rw [prepare, if_pos h, checked]

/-- A foreign database is refused, unless all of its tables are overlooked. -/
theorem prepare_foreign (h : c.Foreign) (hseen : ¬ c.Overlooked) :
    c.prepare = (.error c.refusal, c.checked) := by
  rcases h with hnewer | ⟨holder, huser⟩
  · exact prepare_newer hnewer
  · rw [prepare_older holder, if_neg]
    intro hnone
    exact hseen ⟨holder, huser, userTables_eq_nil_iff.1 hnone⟩

/-- Preparing a database again comes to the same and changes nothing. -/
theorem prepare_again (c : Catalog) : c.prepare.2.prepare = c.prepare := by
  rcases Int.lt_trichotomy c.version schemaVersion with hlt | heq | hgt
  · rw [prepare_older hlt]
    split
    · exact prepare_current rfl
    · next hused =>
        -- the tables are the same as before
        have husedStill : c.checked.userTables ≠ [] := hused
        have hltStill : c.checked.version < schemaVersion := hlt
        rw [prepare_older hltStill, if_neg husedStill]
        rfl
  · rw [prepare_current heq]
    exact prepare_current heq
  · rw [prepare_newer hgt]
    exact prepare_newer hgt

/-! ## Any number of times -/

theorem prepareTimes_succ (c : Catalog) (n : Nat) :
    prepareTimes (n + 1) c = (List.replicate (n + 1) c.prepare.1, c.prepare.2) := by
  induction n generalizing c with
  | zero => rfl
  | succ n ih =>
      rw [prepareTimes]
      dsimp only
      rw [ih, prepare_again, List.replicate_succ (n := n + 1)]

/-- Preparing a database any number of times. A foreign one is refused each time and keeps its
version, its tables and its indexes; that references are checked there is all that happened. One
of this version stays as it is, and so does one that has been prepared. One without a version in
which no user has created anything gets the schema behind what is there, and nothing else. But a
foreign database that is overlooked gets the schema as well. -/
theorem prepareTimes_cases (c : Catalog) (n : Nat) :
    (c.Foreign → ¬ c.Overlooked →
      prepareTimes (n + 1) c =
        (List.replicate (n + 1) (.error c.refusal), { c with checksReferences := true })) ∧
    (c.version = schemaVersion →
      prepareTimes (n + 1) c =
        (List.replicate (n + 1) (.ok ()), { c with checksReferences := true })) ∧
    (c.version < schemaVersion → c.Untouched →
      prepareTimes (n + 1) c = (List.replicate (n + 1) (.ok ()),
        ⟨schemaVersion, c.tables ++ schemaTables, c.indexes ++ schemaIndexes, true⟩)) ∧
    (c.Overlooked →
      prepareTimes (n + 1) c = (List.replicate (n + 1) (.ok ()),
        ⟨schemaVersion, c.tables ++ schemaTables, addMissing c.indexes schemaIndexes, true⟩)) := by
  have hempty : c.version < schemaVersion → (∀ name ∈ c.tables, isInternal name = true) →
      prepareTimes (n + 1) c = (List.replicate (n + 1) (.ok ()),
        ⟨schemaVersion, c.tables ++ schemaTables, addMissing c.indexes schemaIndexes, true⟩) := by
    intro hversion htables
    have hprepare := prepare_older hversion
    rw [if_pos (userTables_eq_nil_iff.2 htables), equipped,
      addMissing_of_internal htables isInternal_schemaTables] at hprepare
    rw [prepareTimes_succ, hprepare]
  refine ⟨fun hforeign hseen => ?_, fun hversion => ?_, fun hversion huntouched => ?_,
    fun hoverlooked => ?_⟩
  · rw [prepareTimes_succ, prepare_foreign hforeign hseen, checked]
  · rw [prepareTimes_succ, prepare_current hversion, checked]
  · have hindexes := addMissing_of_internal
      (fun name hname => isInternal_of_isReserved (huntouched.2 name hname))
      isInternal_schemaIndexes
    rw [← hindexes]
    exact hempty hversion fun name hname => isInternal_of_isReserved (huntouched.1 name hname)
  · exact hempty hoverlooked.1 hoverlooked.2.2

/-- A table of a user is enough to have a database without a version refused, whatever else looks
like the database's own; one of a later version is refused without any. -/
theorem prepareTimes_cases_refused :
    let noted := new (-3) ["SQLite_sequence", "notes", "sqlitedata"]
    prepareTimes 2 noted =
        ([.error (.internal .schemaForeign 500 (some "SCHEMA_VERSION")),
          .error (.internal .schemaForeign 500 (some "SCHEMA_VERSION"))], noted) ∧
      prepareTimes 1 (new 2 []) =
        ([.error (.internal (.schemaTooNew 2) 500 (some "SCHEMA_VERSION"))], new 2 []) := by
  intro noted
  have hnotes : ∃ name ∈ noted.tables, isReserved name = false :=
    ⟨"notes", by decide, by decide⟩
  have hseen : ¬ noted.Overlooked := fun h =>
    absurd (h.2.2 "notes" (by decide)) (by decide)
  exact ⟨(prepareTimes_cases noted 1).1 (.inr ⟨by decide, hnotes⟩) hseen,
    (prepareTimes_cases (new 2 []) 0).1 (.inl (by decide)) fun h => absurd h.1 (by decide)⟩

/-- The one table of a user looks like the database's own: the database is foreign, and it is taken
for an empty one. -/
theorem lookalike_prepared :
    (new 0 ["sqlitedata"]).Foreign ∧
      prepareTimes 1 (new 0 ["sqlitedata"]) =
        ([.ok ()], ⟨1, "sqlitedata" :: schemaTables, schemaIndexes, true⟩) :=
  ⟨.inr ⟨by decide, "sqlitedata", by decide, by decide⟩, rfl⟩

end Catalog

end ProxyFleet
