import ProxyFleet.Failure
import ProxyFleet.Store.Row

/-!
# Preparing a database

A database carries the version of its schema. An empty one without a version
gets the whole schema; one that is not ours, or comes from a later version, is
left alone.
-/

namespace ProxyFleet

/-- What a database shows of itself: the version of its schema, the names of its tables and
indexes, and whether references between tables are checked. -/
structure Catalog where
  version : Int
  tables : List String
  indexes : List String
  checksReferences : Bool
  deriving DecidableEq, Repr

namespace Catalog

/-- The names of the indexes of the schema. -/
def schemaIndexes : List String :=
  ["idx_config_templates_type", "idx_servers_agent_host", "idx_node_users_group",
    "idx_switch_logs_host_created", "idx_switch_logs_status"]

/-- The names of the tables of the schema. -/
def schemaTables : List String := Table.all.map Table.name

/-- What a database says its version is after it was told one: it has room for 32 bits, and what
does not fit leaves zero. -/
def versionMark (n : Int) : Int := if -2147483648 ≤ n ∧ n < 2147483648 then n else 0

/-- A new database with a version and tables. -/
def new (version : Int) (tables : List String) : Catalog :=
  ⟨versionMark version, tables, [], true⟩

/-- Names taken to be the database's own: `sqlite` in letters of either case, one more character
of any kind, and whatever follows. -/
def isInternal (name : String) : Bool :=
  name.toList.length > 6 && (name.toList.take 6).map Char.toLower == "sqlite".toList

/-- The tables that count as a user's. -/
def userTables (c : Catalog) : List String := c.tables.filter (!isInternal ·)

/-- The indexes that count as a user's. -/
def userIndexes (c : Catalog) : List String := c.indexes.filter (!isInternal ·)

/-- Names that are not there yet are added. -/
def addMissing (names more : List String) : List String :=
  names ++ more.filter (!names.contains ·)

/-- Prepares a database: what it came to, and the database then. References are checked from the
start, also in a database that is refused then; one that may be touched gets the whole schema. -/
def prepare (c : Catalog) : Except Failure Unit × Catalog :=
  let checked := { c with checksReferences := true }
  let refuse (why : Internal) : Except Failure Unit × Catalog :=
    (.error (.internal why 500 (some "SCHEMA_VERSION")), checked)
  if c.version = schemaVersion then (.ok (), checked)
  else if schemaVersion < c.version then refuse (.schemaTooNew c.version)
  else if !c.userTables.isEmpty then refuse .schemaForeign
  else
    let equipped : Catalog := {
      checked with
      version := schemaVersion
      tables := addMissing c.tables schemaTables
      indexes := addMissing c.indexes schemaIndexes
    }
    (.ok (), equipped)

/-- Prepares a database several times: what each time came to, and the database at the end. -/
def prepareTimes : Nat → Catalog → List (Except Failure Unit) × Catalog
  | 0, c => ([], c)
  | n + 1, c =>
    let (outcome, c) := c.prepare
    let (outcomes, c) := prepareTimes n c
    (outcome :: outcomes, c)

end Catalog

end ProxyFleet
