import ProxyFleet.Proofs.Value.Fields
import ProxyFleet.Template.Planning

/-!
# Where the ways of a plan come from

Whether a path must lead to something is a matter of where it stands in the template: it must
where it stands for its own value, names a block or is called, and it need not where it is given
to a call (`Role.needed`). Planning keeps to that. Every way in a plan is the way of a path of
the template, and it stands where ways of its kind do (`Program.plan_within`).

Planning may take an earlier plan in the place of one that is alike, so what it remembers keeps
to the same.
-/

namespace ProxyFleet

namespace Template

/-! ## Ways of a template -/

open Planning (wayOf)

/-- What a path is there for: for its own value, as the name of a block, to be called, or to be
given to a call. -/
inductive Role where
  | mustache
  | block
  | callee
  | argument
  deriving DecidableEq, Repr

/-- Whether a path must lead to something. -/
def Role.needed : Role → Bool
  | .argument => false
  | _ => true

mutual

/-- The ways in what is given to a call. -/
def Expr.ways (names : List (List String)) : Expr → List (Role × Way)
  | .head (.literal ..) => []
  | .head (.path p) => [(.argument, wayOf names p)]
  | .call h ps ns _ => (.callee, wayOf names h.toPath) :: (waysIn names ps ++ waysNamed names ns)

/-- The ways in what is given to a call in order. -/
def waysIn (names : List (List String)) : List Expr → List (Role × Way)
  | [] => []
  | e :: es => e.ways names ++ waysIn names es

/-- The ways in what is given to a call by name. -/
def waysNamed (names : List (List String)) : List (String × Expr) → List (Role × Way)
  | [] => []
  | (_, e) :: es => e.ways names ++ waysNamed names es

end

/-- The ways in what is given to a call. -/
def Call.given (names : List (List String)) (c : Call) : List (Role × Way) :=
  waysIn names c.params ++ waysNamed names c.named

/-- The ways of a call. Its head is called if anything is given to it, and else it is there for
what a head alone is. -/
def Call.ways (names : List (List String)) (alone : Role) (c : Call) : List (Role × Way) :=
  (if c.params.isEmpty && c.named.isEmpty then alone else .callee, wayOf names c.head.toPath) ::
    c.given names

/-- The ways in the name of a partial. One that is written is none. -/
def Expr.nameWays (names : List (List String)) : Expr → List (Role × Way)
  | .head _ => []
  | e => e.ways names

mutual

/-- The ways of a statement. The head of a definition is a kind and not a path. -/
def Statement.ways (names : List (List String)) : Statement → List (Role × Way)
  | .content .. | .comment _ => []
  | .insert c _ => c.ways names .mustache
  | .decorator c _ => c.given names
  | .block decorator c p i _ _ _ =>
    (if decorator then c.given names else c.ways names .block) ++
      (waysOptional names p ++ waysOptional names i)
  | .partialTag name ps ns _ _ _ => name.nameWays names ++ (waysIn names ps ++ waysNamed names ns)
  | .partialBlock name ps ns p _ _ _ =>
    (name.nameWays names ++ (waysIn names ps ++ waysNamed names ns)) ++ p.ways names

/-- The ways of a program, if there is one. -/
def waysOptional (names : List (List String)) : Option Program → List (Role × Way)
  | none => []
  | some p => p.ways names

/-- The ways of statements. -/
def waysOf (names : List (List String)) : List Statement → List (Role × Way)
  | [] => []
  | s :: ss => s.ways names ++ waysOf names ss

/-- The ways of a program, each with what its path is there for. The block parameters of the
program come before those around it. -/
def Program.ways (names : List (List String)) : Program → List (Role × Way)
  | .mk body own _ => waysOf (own :: names) body

end

/-! ## Plans within ways -/

/-- Which ways there may be, those that must lead to something and those that need not. -/
abbrev Ways := Bool → Way → Prop

/-- A way may be there for something. -/
def Ways.Admits (W : Ways) (x : Role × Way) : Prop := W x.1.needed x.2

variable {W : Ways}

mutual

/-- All ways in an operand may be there. -/
inductive Operand.Within (W : Ways) : Operand → Prop
  | literal (l : Literal) : Operand.Within W (.literal l)
  | way {w : Way} (hw : W false w) : Operand.Within W (.way w)
  | tag {t : Tag} (ht : Tag.Within W t) : Operand.Within W (.tag t)
  | refused : Operand.Within W .refused

/-- All ways in a tag may be there. -/
inductive Tag.Within (W : Ways) : Tag → Prop
  | value {w : Way} (hw : W true w) : Tag.Within W (.value w)
  | single {w : Way} {site : CallSite} (hw : W true w) : Tag.Within W (.single w site)
  | call {target : Target} {args : List Operand} {named : List (String × Operand)}
      (htarget : ∀ w site, target = .found w site → W true w)
      (hargs : ∀ o ∈ args, Operand.Within W o)
      (hnamed : ∀ n ∈ named, Operand.Within W n.2) : Tag.Within W (.call target args named)

end

mutual

/-- All ways in a step may be there. -/
inductive Step.Within (W : Ways) : Step → Prop
  | text (s : String) : Step.Within W (.text s)
  | tag {t : Tag} (ht : t.Within W) : Step.Within W (.tag t)
  | block {t : Tag} {program inverse : Option Plan} (ht : t.Within W)
      (hprogram : ∀ p ∈ program, Plan.Within W p) (hinverse : ∀ p ∈ inverse, Plan.Within W p) :
      Step.Within W (.block t program inverse)
  | partialCall {name : PartialName} {context : Option Operand}
      {named : Option (List (String × Operand))} {block : Option Plan} {indent : String}
      (hname : ∀ o, name = .computed o → o.Within W) (hcontext : ∀ o ∈ context, o.Within W)
      (hnamed : ∀ ns ∈ named, ∀ n ∈ ns, n.2.Within W) (hblock : ∀ p ∈ block, Plan.Within W p) :
      Step.Within W (.partialCall name context named block indent)
  | definition {kind : String} {args : List Operand} {named : List (String × Operand)}
      {block : Option Plan} (hargs : ∀ o ∈ args, o.Within W) (hnamed : ∀ n ∈ named, n.2.Within W)
      (hblock : ∀ p ∈ block, Plan.Within W p) :
      Step.Within W (.definition kind args named block)

/-- All ways in a plan may be there. -/
inductive Plan.Within (W : Ways) : Plan → Prop
  | mk {steps : List Step} {single outward sharing : Bool} (h : ∀ s ∈ steps, Step.Within W s) :
      Plan.Within W (.mk steps single outward sharing)

end

theorem Plan.Within.steps {p : Plan} (h : p.Within W) : ∀ s ∈ p.steps, s.Within W := by
  cases h with
  | mk h => exact h

namespace Planning

variable {α β : Type} {names : List (List String)} {p : Path}

/-! ## Tags -/

theorem targetOf_found {span : Span} {w : Way} {site : CallSite}
    (h : targetOf names p span = .found w site) : w = wayOf names p := by
  unfold targetOf at h
  split at h <;> cases h
  rfl

theorem tagOf_within {span : Span} {given : Bool} {args : List Operand}
    {named : List (String × Operand)} (hhead : W true (wayOf names p))
    (hargs : ∀ o ∈ args, o.Within W) (hnamed : ∀ n ∈ named, n.2.Within W) :
    (tagOf names p span given args named).Within W := by
  have htarget : ∀ w site, targetOf names p span = .found w site → W true w := fun w site h => by
    rw [targetOf_found h]
    exact hhead
  rw [tagOf]
  split
  · exact .value hhead
  · split
    · exact .call htarget hargs hnamed
    · split
      · split
        · exact .call htarget nofun nofun
        · exact .single hhead
      · exact .value hhead

theorem inOrder_within {named : List (String × Operand)} (h : ∀ n ∈ named, n.2.Within W) :
    ∀ n ∈ inOrder named, n.2.Within W := by
  intro n hn
  rcases Fields.mem_putAll (List.mem_filter.1 hn).1 with hn | hn
  · cases hn
  · exact h n (List.mem_reverse.1 hn)

mutual

theorem operandOf_within {helpers : Bool} : ∀ {e : Expr}, (∀ x ∈ e.ways names, W.Admits x) →
    (operandOf helpers names e).Within W
  | .head (.literal l _), _ => .literal l
  | .head (.path p), h => .way (h (.argument, wayOf names p) List.mem_cons_self)
  | .call head ps ns span, h => by
    rw [Expr.ways, List.forall_mem_cons, List.forall_mem_append] at h
    obtain ⟨hhead, hps, hns⟩ := h
    have htag : (tagOf names head.toPath span true (operandsOf helpers names ps)
        (inOrder (namedOf helpers names ns))).Within W :=
      tagOf_within hhead (operandsOf_within hps) (inOrder_within (namedOf_within hns))
    rw [operandOf]
    split
    · next heq =>
        rw [heq] at htag
        split
        · exact .refused
        · exact .tag htag
    · exact .tag htag

theorem operandsOf_within {helpers : Bool} : ∀ {es : List Expr},
    (∀ x ∈ waysIn names es, W.Admits x) → ∀ o ∈ operandsOf helpers names es, o.Within W
  | [], _ => nofun
  | e :: es, h => by
    rw [waysIn, List.forall_mem_append] at h
    rw [operandsOf, List.forall_mem_cons]
    exact ⟨operandOf_within h.1, operandsOf_within h.2⟩

theorem namedOf_within {helpers : Bool} : ∀ {es : List (String × Expr)},
    (∀ x ∈ waysNamed names es, W.Admits x) → ∀ n ∈ namedOf helpers names es, n.2.Within W
  | [], _ => nofun
  | (k, e) :: es, h => by
    rw [waysNamed, List.forall_mem_append] at h
    rw [namedOf, List.forall_mem_cons]
    exact ⟨operandOf_within h.1, namedOf_within h.2⟩

end

theorem tagOfCall_within {c : Call} {alone : Role} (halone : alone.needed = true)
    (h : ∀ x ∈ c.ways names alone, W.Admits x) : (tagOfCall names c).Within W := by
  rw [Call.ways, List.forall_mem_cons, Call.given, List.forall_mem_append] at h
  obtain ⟨hhead, hparams, hnamed⟩ := h
  refine tagOf_within ?_ (operandsOf_within hparams) (inOrder_within (namedOf_within hnamed))
  rw [Ways.Admits] at hhead
  split at hhead
  · rwa [halone] at hhead
  · exact hhead

theorem partialNameOf_within {e : Expr} (h : ∀ x ∈ e.nameWays names, W.Admits x) :
    ∀ o, partialNameOf names e = .computed o → o.Within W := by
  cases e with
  | head head => exact nofun
  | call head ps ns span =>
      rintro o ⟨⟩
      exact operandOf_within h

theorem definitionOf_within {c : Call} {block : Option Plan} (h : ∀ x ∈ c.given names, W.Admits x)
    (hblock : ∀ p ∈ block, p.Within W) : (definitionOf names c block).Within W := by
  rw [Call.given, List.forall_mem_append] at h
  exact .definition (operandsOf_within h.1) (inOrder_within (namedOf_within h.2)) hblock

theorem partialStep_within {name : Expr} {ps : List Expr} {ns : List (String × Expr)}
    {block : Option Plan} {indent : String}
    (h : ∀ x ∈ name.nameWays names ++ (waysIn names ps ++ waysNamed names ns), W.Admits x)
    (hblock : ∀ p ∈ block, p.Within W) :
    (partialStep names name ps ns block indent).Within W := by
  rw [List.forall_mem_append, List.forall_mem_append] at h
  obtain ⟨hname, hps, hns⟩ := h
  refine .partialCall (partialNameOf_within hname)
    (fun o ho => operandsOf_within hps o (List.mem_of_mem_head? ho)) ?_ hblock
  split
  · exact nofun
  · rintro _ ⟨⟩
    exact inOrder_within (namedOf_within hns)

/-! ## Statements -/

/-- All ways in the plans that are remembered may be there. -/
def Remembers (W : Ways) (s : Planned) : Prop := ∀ q ∈ s.plans, q.1.Within W

/-- Planning that remembers such plans only gives what has a property, and remembers such plans. -/
def Keeps (W : Ways) (m : Planning α) (P : α → Prop) : Prop :=
  ∀ s, Remembers W s → ∀ a t, m s = .ok (a, t) → P a ∧ Remembers W t

namespace Keeps

variable {m : Planning α} {P : α → Prop} {Q : β → Prop}

theorem pure {a : α} (h : P a) : Keeps W (pure a) P := by
  rintro s hs _ _ ⟨⟩
  exact ⟨h, hs⟩

theorem throw (f : RunFault) : Keeps W (throw f : Planning α) P := nofun

theorem bind {f : α → Planning β} (hm : Keeps W m P) (hf : ∀ a, P a → Keeps W (f a) Q) :
    Keeps W (m >>= f) Q := by
  intro s hs b u hrun
  change (m s >>= fun r => f r.1 r.2) = .ok (b, u) at hrun
  cases hfirst : m s with
  | error e =>
      rw [hfirst] at hrun
      cases hrun
  | ok r =>
      obtain ⟨a, t⟩ := r
      rw [hfirst] at hrun
      obtain ⟨ha, ht⟩ := hm s hs a t hfirst
      exact hf a ha t ht b u hrun

end Keeps

theorem share_keeps {make : Planning Plan} (h : Keeps W make (Plan.Within W)) :
    Keeps W (share make) (Plan.Within W) := by
  have hget : Keeps W get (Remembers W) := by
    rintro s hs _ _ ⟨⟩
    exact ⟨hs, hs⟩
  have hset {s : Planned} (hs : Remembers W s) : Keeps W (set s) fun _ => True := by
    rintro _ - _ _ ⟨⟩
    exact ⟨trivial, hs⟩
  have hforget : Keeps W (modify fun s => { s with sharing := false }) fun _ => True := by
    rintro s hs _ _ ⟨⟩
    exact ⟨trivial, hs⟩
  refine .bind hget fun around _ => .bind hforget fun _ _ => .bind h fun p hp =>
    .bind hget fun s hs => ?_
  split
  · next q read hfound =>
      exact .bind (hset hs) fun _ _ => .pure (hs (q, read) (List.mem_of_find?_eq_some hfound))
  · exact .bind (hset (List.forall_mem_append.2 ⟨hs, List.forall_mem_singleton.2 hp⟩)) fun _ _ =>
      .pure hp

theorem oneContext_keeps (ps : List Expr) (place : Place) :
    Keeps W (oneContext ps place) fun _ => True := by
  rw [oneContext]
  split
  · exact .throw _
  · exact .pure trivial

mutual

theorem statement_keeps : ∀ {names : List (List String)} {s : Statement},
    (∀ x ∈ s.ways names, W.Admits x) →
      Keeps W (statement names s) fun steps => ∀ st ∈ steps, st.Within W
  | _, .content _ value _ _, _ => by
    rw [statement]
    split
    · exact .pure nofun
    · exact .pure (List.forall_mem_singleton.2 (.text _))
  | _, .comment _, _ => .pure nofun
  | _, .insert c _, h => .pure (List.forall_mem_singleton.2 (.tag (tagOfCall_within rfl h)))
  | _, .decorator c _, h => .pure (List.forall_mem_singleton.2 (definitionOf_within h nofun))
  | _, .block decorator c p i _ _ _, h => by
    rw [Statement.ways, List.forall_mem_append, List.forall_mem_append] at h
    obtain ⟨hcall, hp, hi⟩ := h
    rw [statement]
    refine .bind (optional_keeps hp) fun p hp => .bind (optional_keeps hi) fun i hi =>
      .pure (List.forall_mem_singleton.2 ?_)
    cases decorator with
    | true => exact definitionOf_within hcall hp
    | false => exact .block (tagOfCall_within rfl hcall) hp hi
  | _, .partialTag name ps ns indent _ place, h => by
    rw [statement]
    exact .bind (oneContext_keeps ps place) fun _ _ =>
      .pure (List.forall_mem_singleton.2 (partialStep_within h nofun))
  | _, .partialBlock name ps ns p _ _ place, h => by
    rw [Statement.ways, List.forall_mem_append] at h
    rw [statement]
    refine .bind (share_keeps (program_keeps h.2)) fun block hblock =>
      .bind (oneContext_keeps ps place) fun _ _ =>
      .pure (List.forall_mem_singleton.2 (partialStep_within h.1 ?_))
    rintro _ ⟨⟩
    exact hblock

theorem optional_keeps : ∀ {names : List (List String)} {p : Option Program},
    (∀ x ∈ waysOptional names p, W.Admits x) →
      Keeps W (optional names p) fun plan => ∀ q ∈ plan, q.Within W
  | _, none, _ => .pure nofun
  | _, some p, h => by
    rw [optional]
    refine .bind (share_keeps (program_keeps h)) fun plan hplan => .pure ?_
    rintro _ ⟨⟩
    exact hplan

theorem statements_keeps : ∀ {names : List (List String)} {ss : List Statement},
    (∀ x ∈ waysOf names ss, W.Admits x) →
      Keeps W (statements names ss) fun steps => ∀ st ∈ steps, st.Within W
  | _, [], _ => .pure nofun
  | _, s :: ss, h => by
    rw [waysOf, List.forall_mem_append] at h
    rw [statements]
    exact .bind (statement_keeps h.1) fun here hhere => .bind (statements_keeps h.2)
      fun rest hrest => .pure (List.forall_mem_append.2 ⟨hhere, hrest⟩)

theorem program_keeps : ∀ {names : List (List String)} {p : Program},
    (∀ x ∈ p.ways names, W.Admits x) → Keeps W (program names p) (Plan.Within W)
  | _, .mk body own _, h => by
    rw [program]
    refine .bind (statements_keeps h) fun steps hsteps => .bind (P := fun _ => True) ?_
      fun s _ => .pure (.mk hsteps)
    rintro s hs _ _ ⟨⟩
    exact ⟨trivial, hs⟩

end

end Planning

/-! ## Templates -/

/-- A template asks for a way: one of its paths leads that way, and whether it must lead to
something is what it is there for. -/
def Program.Asks (p : Program) : Ways := fun needed w =>
  ∃ role, (role, w) ∈ p.ways [] ∧ needed = role.needed

theorem Program.plan_within {p : Program} {plan : Plan} (h : p.plan = .ok plan) :
    plan.Within p.Asks := by
  have hways : ∀ x ∈ p.ways [], p.Asks.Admits x := fun x hx => ⟨x.1, hx, rfl⟩
  unfold Program.plan at h
  cases hrun : Planning.program [] p ⟨[], false⟩ with
  | error f =>
      rw [hrun] at h
      cases h
  | ok r =>
      rw [hrun] at h
      cases h
      exact (Planning.program_keeps hways ⟨[], false⟩ nofun r.1 r.2 hrun).1

end Template

end ProxyFleet
