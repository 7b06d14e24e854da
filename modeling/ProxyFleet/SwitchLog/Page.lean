import ProxyFleet.Number

/-!
# Pages of the switch log

How many rows a page has and where it begins, as asked for: sizes are capped,
and what makes no sense gives the default.
-/

namespace ProxyFleet

/-- The size of a page if none is asked for. -/
def defaultPageSize : Number := 50

/-- The largest size of a page. -/
def maxPageSize : Number := 200

/-- The size of a page: at least above zero as asked for, and not above the largest size. -/
def pageSize (asked : Option Number) : Number :=
  match asked with
  | none => defaultPageSize
  | some n =>
    if n.le 0 then defaultPageSize
    else if maxPageSize.lt n.trunc then maxPageSize else n.trunc

/-- Where a page begins; never before the first row. -/
def pageStart (asked : Option Number) : Number :=
  match asked with
  | none => 0
  | some n => if n.lt 0 then 0 else n.trunc

end ProxyFleet
