import ProxyFleet.Proofs.Template.Positions
import ProxyFleet.Template.Run

/-!
# Plans in values

While a template runs, the programs of its blocks are values like others: they are handed to
partials, stand in private data and can be found at the end of a way. So which plans a run can
come to is not seen from the plan that it runs, but from all that it can get at. What a value
holds, what is put together from values and what helpers make of them lead to no plan that the
values did not lead to before.
-/

namespace ProxyFleet

namespace Template

variable {W : Ways}

mutual

/-- All ways in the plans that a value leads to may be there. -/
inductive Item.Within (W : Ways) : Item → Prop
  | data (v : Value) (origin : Origin) : Item.Within W (.data v origin)
  | list {items : List Item} {number : Nat} (h : ∀ i ∈ items, Item.Within W i) :
      Item.Within W (.list items number)
  | record {fields : List (String × Item)} {number : Nat} (h : ∀ f ∈ fields, Item.Within W f.2) :
      Item.Within W (.record fields number)
  | function {f : Function} {number : Nat} (h : Function.Within W f) :
      Item.Within W (.function f number)

/-- All ways in the plans that a function leads to may be there. -/
inductive Function.Within (W : Ways) : Function → Prop
  | empty : Function.Within W .empty
  | program {c : Closure} (h : Closure.Within W c) : Function.Within W (.program c)
  | block {c : Closure} {outer : Item} (h : Closure.Within W c) (houter : Item.Within W outer) :
      Function.Within W (.block c outer)

/-- All ways in a plan and in the plans that it sees may be there. -/
inductive Closure.Within (W : Ways) : Closure → Prop
  | mk {plan : Plan} {params : List Item} {depths : Option (List Item)} {frame : Item}
      {partials : List (String × Option Closure)} (hplan : plan.Within W)
      (hparams : ∀ i ∈ params, Item.Within W i)
      (hdepths : ∀ is ∈ depths, ∀ i ∈ is, Item.Within W i) (hframe : Item.Within W frame)
      (hpartials : ∀ n ∈ partials, ∀ c ∈ n.2, Closure.Within W c) :
      Closure.Within W (.mk plan params depths frame partials)

end

/-! ## Values -/

namespace Item.Within

variable {i j : Item} {name : String}

theorem own? (h : i.Within W) (hj : i.own? name = some j) : j.Within W := by
  cases h with
  | data v o =>
      obtain ⟨w, -, rfl⟩ := Option.map_eq_some_iff.1 hj
      exact .data _ _
  | list h =>
      rw [Item.own?] at hj
      split at hj
      · cases hj
        exact .data _ _
      · obtain ⟨n, -, hn⟩ := Option.bind_eq_some_iff.1 hj
        exact h j (List.mem_of_getElem? hn)
  | record h => exact h (name, j) (Fields.mem_of_get? hj)
  | function => cases hj

theorem getOwn (h : i.Within W) (name : String) : ((i.own? name).getD .absent).Within W := by
  cases hj : i.own? name with
  | none => exact .data _ _
  | some j => exact h.own? hj

theorem field (h : i.Within W) (hj : i.field name = .ok j) : j.Within W := by
  rw [Item.field] at hj
  split at hj
  · cases hj
  · cases hj
    exact h.getOwn name

theorem parts (h : i.Within W) : ∀ f ∈ i.parts, f.2.Within W := by
  cases h with
  | data v o =>
      rw [Item.parts, List.forall_mem_map]
      exact fun f _ => .data _ _
  | list h =>
      rw [Item.parts, List.forall_mem_map]
      exact fun x hx => h x.1 (List.fst_mem_of_mem_zipIdx hx)
  | record h => exact h
  | function => exact nofun

theorem items (h : i.Within W) : ∀ x ∈ i.items, x.Within W := by
  cases h with
  | data v o =>
      cases v with
      | arr xs =>
          rw [Item.items, List.forall_mem_map]
          exact fun x _ => .data _ _
      | _ => exact nofun
  | list h => exact h
  | _ => exact nofun

theorem iteration (h : i.Within W) : ∀ x ∈ iteration i, x.1.Within W := by
  rw [Template.iteration]
  split
  · rw [List.forall_mem_map]
    exact fun x hx => h.items x.1 (List.fst_mem_of_mem_zipIdx hx)
  · split
    · rw [List.forall_mem_map]
      exact h.parts
    · exact nofun

theorem plus {a b : Item} (h : a.plus b = .ok i) : i.Within W := by
  unfold Item.plus at h
  cases hx : a.primitive with
  | error e =>
      rw [hx] at h
      cases h
  | ok x =>
      cases hy : b.primitive with
      | error e =>
          rw [hx, hy] at h
          cases h
      | ok y =>
          rw [hx, hy] at h
          change (if x.text?.isSome || y.text?.isSome then _ else _) = _ at h
          split at h
          · cases hs : x.display with
            | error e =>
                rw [hs] at h
                cases h
            | ok s =>
                cases ht : y.display with
                | error e =>
                    rw [hs, ht] at h
                    cases h
                | ok t =>
                    rw [hs, ht] at h
                    cases h
                    exact .data _ _
          · cases h
            exact .data _ _

theorem orEmpty (h : i.Within W) : (orEmpty i).Within W := by
  rw [Template.orEmpty]
  split
  · exact .data _ _
  · exact h

theorem frameOutward (h : i.Within W) (depth : Nat) : (frameOutward depth i).Within W := by
  induction depth generalizing i with
  | zero => exact h
  | succ depth ih =>
      rw [Template.frameOutward]
      split
      · exact ih (h.getOwn _)
      · exact h

end Item.Within

theorem getD_within {is : List Item} (h : ∀ i ∈ is, i.Within W) (n : Nat) :
    (is.getD n .absent).Within W := by
  rw [List.getD_eq_getElem?_getD]
  cases hi : is[n]? with
  | none => exact .data _ _
  | some i => exact h i (List.mem_of_getElem? hi)

theorem putAll_within {fs gs : List (String × Item)} (hfs : ∀ f ∈ fs, f.2.Within W)
    (hgs : ∀ f ∈ gs, f.2.Within W) : ∀ f ∈ Fields.putAll fs gs, f.2.Within W :=
  fun f hf => (Fields.mem_putAll hf).elim (hfs f) (hgs f)

/-! ## Helpers -/

/-- What a result gives, if it gives anything, leads to such plans only. -/
def ResultWithin (W : Ways) (x : Except ShapeFault (Noted Item)) : Prop :=
  ∀ r, x = .ok r → r.value.Within W

namespace ResultWithin

variable {α : Type}

theorem item {i : Item} (h : i.Within W) : ResultWithin W (.ok (pure i)) := by
  rintro _ ⟨⟩
  exact h

theorem map {f : α → Noted Item} (hf : ∀ a, (f a).value.Within W) (x : Except ShapeFault α) :
    ResultWithin W (x.map f) := by
  cases x with
  | error e => exact nofun
  | ok a =>
      rintro _ ⟨⟩
      exact hf a

theorem bind {f : α → Except ShapeFault (Noted Item)} {x : Except ShapeFault α}
    (hf : ∀ a, x = .ok a → ResultWithin W (f a)) : ResultWithin W (x >>= f) := by
  cases x with
  | error e => exact nofun
  | ok a => exact hf a rfl

end ResultWithin

namespace Helper

variable {i : Item}

theorem unitText_within (c : Option Char) : (unitText c).Within W := by
  cases c <;> exact .data _ _

theorem firstOf_within (h : i.Within W) : (firstOf i).Within W := by
  rw [firstOf.eq_def]
  split
  · exact unitText_within _
  · cases hhead : i.items.head? with
    | none => exact .data _ _
    | some x => exact h.items x (List.mem_of_mem_head? hhead)

theorem lastOf_within (h : i.Within W) : (lastOf i).Within W := by
  rw [lastOf.eq_def]
  split
  · exact unitText_within _
  · cases hlast : i.items.getLast? with
    | none => exact .data _ _
    | some x => exact h.items x (List.mem_of_getLast? hlast)

theorem dataText_within (layout : Value → String) (i : Item) : (dataText layout i).Within W := by
  cases i <;> exact .data _ _

theorem ofType_subset {listeners type : Item} {is : List Item}
    (h : ofType listeners type = .ok is) : ∀ i ∈ is, i ∈ listeners.items := by
  unfold ofType at h
  split at h
  · cases h
    exact nofun
  · cases htext : textOf type with
    | error e =>
        rw [htext] at h
        cases h
    | ok wanted =>
        rw [htext] at h
        cases h
        exact fun i hi => (List.mem_filter.1 (List.mem_filter.1 hi).1).1

/-- A helper leads to no plan but those that it is given. -/
theorem apply_within (h : Helper) {args : List Item} (hargs : ∀ i ∈ args, i.Within W)
    (number : Nat) : ResultWithin W (h.apply args number) := by
  have hargs (n : Nat) : (args.getD n .absent).Within W := getD_within hargs n
  cases h with
  | json | jsonIndent => exact .item (dataText_within _ _)
  | orElse =>
      refine .item ?_
      split
      · exact hargs 0
      · exact hargs 1
  | first => exact .item (firstOf_within (hargs 0))
  | last => exact .item (lastOf_within (hargs 0))
  | filterByType =>
      exact .bind fun is his => .item (.list fun i hi => (hargs 0).items i (ofType_subset his i hi))
  | join | quote | lower | upper | trim | replace | singBoxInbound | xrayInbound =>
      exact .map (fun _ => .data _ _) _
  | contains | hasCap | startsWith | endsWith =>
      exact .bind fun _ _ => .bind fun _ _ => .item (.data _ _)
  | usersForProtocol | v2rayApiConfig | xrayApiConfig => exact .bind fun _ _ => .item (.data _ _)
  | _ => exact .item (.data _ _)

end Helper

/-! ## What a plan sees -/

/-- All that a plan sees leads to such plans only. -/
structure Scope.Within (W : Ways) (s : Scope) : Prop where
  context : s.context.Within W
  depths : ∀ is ∈ s.depths, ∀ i ∈ is, i.Within W
  frame : s.frame.Within W
  params : ∀ i ∈ s.params, i.Within W
  partials : ∀ n ∈ s.partials, ∀ c ∈ n.2, c.Within W

/-- The programs of a block lead to such plans only. -/
inductive Branches.Within (W : Ways) : Branches → Prop
  | none : Branches.Within W .none
  | some {program inverse : Option Closure} (hprogram : ∀ c ∈ program, c.Within W)
      (hinverse : ∀ c ∈ inverse, c.Within W) : Branches.Within W (.some program inverse)

theorem branchFunction_within {c : Option Closure} (h : ∀ x ∈ c, x.Within W) :
    (branchFunction c).Within W := by
  cases c with
  | none => exact .empty
  | some c => exact .program (h c rfl)

namespace Scope.Within

variable {s : Scope}

theorem receiver (h : s.Within W) : s.receiver.Within W := by
  rw [Scope.receiver]
  split
  · exact .data _ _
  · exact h.context

theorem outward (h : s.Within W) (depth : Nat) : (s.outward depth).Within W := by
  rw [Scope.outward]
  split
  · exact h.context
  · cases hdepths : s.depths with
    | none => exact .data _ _
    | some is =>
        rw [← List.getD_eq_getElem?_getD]
        exact getD_within (h.depths is hdepths) depth

theorem startOf (h : s.Within W) (start : Start) : (s.startOf start).Within W := by
  cases start with
  | context depth => exact h.outward depth
  | data depth => exact h.frame.frameOutward depth
  | parameter block index =>
      rw [Scope.startOf, ← List.getD_eq_getElem?_getD]
      exact getD_within h.params block

/-- What definitions see: the context of the nearest block is theirs. -/
theorem inner (h : s.Within W) :
    Scope.Within W { s with context := ((s.depths.getD []).head?).getD .absent } where
  context := by
    change (((s.depths.getD []).head?).getD .absent).Within W
    cases hdepths : s.depths with
    | none => exact .data _ _
    | some is =>
        cases is with
        | nil => exact .data _ _
        | cons i is => exact h.depths (i :: is) hdepths i List.mem_cons_self
  depths := h.depths
  frame := h.frame
  params := h.params
  partials := h.partials

end Scope.Within

end Template

end ProxyFleet
