import ProxyFleet.Proofs.Inbound.Files
import ProxyFleet.Proofs.Template.Plans
import ProxyFleet.Proofs.Template.Runs

/-!
# What the default templates say

The plan of a default template is run step by step. What its steps yield are the tokens
of a record that can be written down (`singBoxSections`, `xraySections`): the commas of its
arrays come out of the loops, for each item by whether it is the last one, and the text
around the tags is scanned on its own.
-/

namespace ProxyFleet

/-! ## Contexts -/

/-- What the default templates look at in a context. -/
structure Context.View where
  inbounds : List Inbound
  outbounds : List (String × String)
  subscribers : List Subscriber
  logLevel : String
  statsEnabled : Bool
  v2rayApi : Option String

/-- A context in which the default templates see certain listeners, outbounds by type and tag,
subscribers and settings. What else a context holds does not matter. -/
structure Context.Shows (fs : Fields) (c : View) : Prop where
  inbounds : ∃ vs, Fields.get fs "inbounds" = .arr vs ∧
    List.Forall₂ (fun v i => v.isInbound = true ∧ Inbound.ofValue? v = some i) vs c.inbounds
  outbounds : ∃ vs, Fields.get fs "outbounds" = .arr vs ∧
    List.Forall₂ (fun v o => v.get "type" = .str o.1 ∧ v.get "tag" = .str o.2) vs c.outbounds
  users : ∃ us, Fields.get fs "users" = .arr us ∧ Subscriber.listOf (.arr us) = c.subscribers
  logLevel : (Fields.get fs "server").get "logLevel" = .str c.logLevel
  statsEnabled : (Fields.get fs "server").get "statsEnabled" = .bool c.statsEnabled
  experimental : ∃ gs, Fields.get fs "experimental" = .obj gs ∧ match c.v2rayApi with
    | none => Fields.get gs "v2rayApi" = .absent
    | some listen => (Fields.get gs "v2rayApi").get "listen" = .str listen

/-! ## Walks -/

namespace Value

variable {v w : Value} {name : String}

theorem isRecord_of_get (h : v.get name = w) (hw : w ≠ .absent) : v.isRecord = true := by
  cases v <;> first | rfl | exact absurd h.symm hw

theorem isAbsent_of_ne (hv : v ≠ .absent) : v.isAbsent = false := by
  cases v <;> first | rfl | exact absurd rfl hv

@[simp] theorem isAbsent_absent : Value.absent.isAbsent = true := rfl

theorem walk_cons {names : List String} (hv : v.isRecord = true)
    (h : (v.get name).walk names = some w) : v.walk (name :: names) = some w := by
  cases v with
  | obj fs => exact h
  | _ => cases hv

theorem walk_of_get (h : v.get name = w) (hw : w ≠ .absent) : v.walk [name] = some w :=
  walk_cons (isRecord_of_get h hw) (congrArg some h)

end Value

namespace Template

open Token Fields

variable {n : Nat} {s : Scope} {fs : Fields} {P : Item → Prop}

theorem gives_call {t : Tag} (h : Gives (evalTag n s t (pure .none)) P) :
    Gives (evalOperand (n + 1) s (.tag t)) P := h

/-- A helper gives a value that it computes from data. -/
theorem value_gives {h : Helper} {args : List Operand} {vs : List Value} {v : Value}
    (hargs : List.Forall₂ (fun o v => Gives (evalOperand (n + 1) s o) (IsData v)) args vs)
    (happly : ∀ is, List.Forall₂ IsData vs is → ∀ k, h.apply is k = .ok (pure (.data v ⟨k, []⟩))) :
    Gives (evalOperand (n + 3) s (.of h args)) (IsData v) :=
  gives_call (helper_gives hargs fun is his k => ⟨_, happly is his k, _, rfl⟩)

theorem textOf_str (t : String) (o : Origin) : Helper.textOf (.data (.str t) o) = .ok t :=
  Value.display_str t

theorem isData_root : IsData (.obj fs) ((Scope.whole fs).outward 0) := ⟨_, rfl⟩

theorem holds_bool (b : Bool) : ∀ i, IsData (.bool b) i → holds i [] = b := by
  rintro _ ⟨o, rfl⟩
  cases b <;> rfl

theorem grounded_whole : (Scope.whole fs).Grounded :=
  ⟨⟨fs, _, rfl⟩, fun _ h => ⟨fs, _, [], (Option.some.inj h).symm⟩⟩

/-! ## From plans to renderings -/

/-- What is rendered is the data that the plan of a template spells, laid out anew. -/
theorem render_of_plan {content : String} {p : Plan} {doc : Value}
    (hplan : planOf? content = some p) (hp : p.Plain) (houtward : p.outward = true)
    (h : Gives (runPlan runDepth (.whole fs) p) (Spelling doc.tokens)) :
    (render content (.obj fs)).result = .ok doc.reread.spreadText := by
  obtain ⟨program, hparse, hprogram⟩ : ∃ q, parse content = .ok q ∧ q.plan = .ok p := by
    unfold planOf? at hplan
    split at hplan
    · next q hparse =>
        cases hq : q.plan with
        | error f =>
            rw [hq] at hplan
            cases hplan
        | ok p' =>
            rw [hq] at hplan
            cases hplan
            exact ⟨q, hparse, hq⟩
    · cases hplan
  have hrun : Gives (runTemplate program (.obj fs)) fun t => Closed t.toList doc.tokens := by
    unfold runTemplate
    rw [hprogram]
    refine .bind (definitions_plain hp) ?_
    rintro _ rfl
    rw [houtward]
    refine .bind h ?_
    rintro _ ⟨cs, rfl, hcs⟩
    exact .ofShape (Value.display_str _) (by rwa [String.toList_ofList])
  obtain ⟨t, q, hresult, ht⟩ := hrun ⟨[], Scope.firstNumber, []⟩
  have hraw : renderRaw content (.obj fs) = ⟨.ok t, q.notes⟩ := by
    unfold renderRaw
    rw [hparse]
    dsimp only
    rw [hresult]
  have hread : Value.ofText? t = some doc.reread := Value.ofChars?_spells ht.spells
  unfold render
  dsimp only
  rw [hraw]
  dsimp only
  rw [hread]

/-! ## Arrays -/

/-- The tokens of a line for an item of an array: behind the last one stands a comma only if more
follows. -/
def lineTokens (more last : Bool) (v : Value) : List Token :=
  v.tokens ++ if last && !more then [] else [.comma]

theorem itemTokens_eq (x : Value) (xs : List Value) : x.tokens ++ Value.itemTokens xs =
    eachOf (lineTokens false) (x :: xs) := by
  induction xs generalizing x with
  | nil =>
      rw [Value.itemTokens]
      rfl
  | cons y ys ih =>
      rw [Value.itemTokens, eachOf, ← ih]
      simp [lineTokens]

/-- The items of a written array, with commas between them. -/
theorem tokens_arr (xs : List Value) : (Value.arr xs).tokens =
    .openArray :: (eachOf (lineTokens false) xs ++ [.closeArray]) := by
  cases xs with
  | nil =>
      rw [Value.tokens]
      rfl
  | cons x xs => rw [Value.tokens, itemTokens_eq]

theorem eachOf_map {α β γ : Type} (f : Bool → β → List γ) (g : α → β) (xs : List α) :
    eachOf f (xs.map g) = eachOf (fun last x => f last (g x)) xs := by
  rw [eachOf_eq _ _ 0, eachOf_eq _ _ 0, List.zipIdx_map, List.map_map, List.length_map]
  rfl

/-- With a comma behind every item, another one can follow. -/
theorem eachOf_snoc (xs : List Value) (y : Value) : eachOf (lineTokens false) (xs ++ [y]) =
    eachOf (lineTokens true) xs ++ y.tokens := by
  induction xs with
  | nil => simp [eachOf, lineTokens]
  | cons x xs ih =>
      cases xs with
      | nil => simp [eachOf, lineTokens]
      | cons z zs =>
          rw [eachOf, List.append_assoc, ← ih]
          rfl

/-! ## Lines of arrays -/

/-- What an engine writes of a listener for the users of a context. -/
def Writes (e : Engine) (fs : Fields) (v : Value) (native : Fields) : Prop :=
  ∃ notes, e.writeFor v (get fs "users") = .ok ⟨.obj native, notes⟩

/-- The helper that writes a listener for an engine. -/
def inboundHelper : Engine → Helper
  | .singBox => .singBoxInbound
  | .xray => .xrayInbound

/-- On a visit of a listener, its engine writes it for the users of the context. -/
theorem native_gives {e : Engine} {x : Value} {last : Bool} {native : Fields} {l c l' c' : Nat}
    (hs : s.Visits fs true x last) (hx : Writes e fs x native) :
    Gives (evalOperand (n + 4) s
      (.of (inboundHelper e) [.outward 0 [] l c, .outward 1 ["users"] l' c']))
      (IsData (.obj native)) := by
  have hself : Gives (evalOperand (n + 2) s (.outward 0 [] l c)) (IsData x) :=
    gives_context hs.context rfl
  have haround : Gives (evalOperand (n + 2) s (.outward 1 ["users"] l' c'))
      (IsData (get fs "users")) := gives_context ⟨_, hs.around rfl⟩ rfl
  obtain ⟨notes, hx⟩ := hx
  refine gives_call (helper_gives (.cons hself (.cons haround .nil)) fun is his k => ?_)
  obtain _ | ⟨⟨o, rfl⟩, _ | ⟨⟨o', rfl⟩, ⟨⟩⟩⟩ := his
  cases e with
  | singBox => exact ⟨_, congrArg (Except.map _) hx, _, rfl⟩
  | xray => exact ⟨_, congrArg (Except.map _) hx, _, rfl⟩

theorem comma_spells (hs : s.passing = false) :
    Gives (runPlan (n + 2) s commaPlan) (Spelling [.comma]) := by
  have hstep : Gives (runStep (n + 1) s (.text ",")) (Spelling [.comma]) :=
    text_spells (.of_scan rfl)
  exact runPlan_spells (p := commaPlan) ⟨rfl, rfl, rfl⟩ hs (.cons hstep .nil)

/-- A comma stands behind every item but the last one. -/
theorem comma_unless_last {x : Value} {last outward : Bool} {l c : Nat}
    (hs : s.Visits fs outward x last) :
    Gives (runStep (n + 7) s (.around .unlessTrue (.around ["last"] l c) commaPlan))
      (Spelling (if last then [] else [.comma])) :=
  unless_spells hs.grounded ⟨rfl, rfl, rfl⟩ rfl (gives_private hs.last ⟨_, rfl⟩ rfl)
    (holds_bool last) fun _ => comma_spells rfl

/-! ## sing-box -/

/-- An outbound of a type and with a tag. -/
def outboundRecord (o : String × String) : Value :=
  .obj [("type", .str o.1), ("tag", .str o.2)]

/-- What the default template for sing-box says, with listeners as they are written. -/
def singBoxSections (fs : Fields) (c : Context.View) (natives : List Fields) : Fields :=
  [("log", .obj [("level", .str c.logLevel), ("timestamp", .bool true)]),
    ("dns", Section.dns),
    ("inbounds", .arr (natives.map .obj)),
    ("outbounds", .arr (c.outbounds.map outboundRecord)),
    ("route", Section.route (get fs "inbounds")),
    ("experimental", .ofOption (fun listen => .obj [("v2ray_api",
      Section.v2rayApi listen (get fs "inbounds") (get fs "users"))]) c.v2rayApi)]

theorem singBoxInbound_spells {x : Value} {last : Bool} {native : Fields}
    (hs : s.Visits fs true x last) (hx : Writes .singBox fs x native) :
    Gives (runPlan (n + 8) s singBoxInboundPlan)
      (Spelling (lineTokens false last (.obj native))) := by
  have hsteps : List.Forall₂ (fun st ts => Gives (runStep (n + 7) s st) (Spelling ts))
      singBoxInboundPlan.steps
      [[], (Value.obj native).tokens, if last then [] else [.comma], []] := by
    refine .cons ?_ (.cons ?_ (.cons ?_ (.cons ?_ .nil)))
    · exact text_spells (.of_scan rfl)
    · exact json_spells (native_gives (e := .singBox) hs hx) rfl
        (Printer.record_closed .tight 0 native)
    · exact comma_unless_last hs
    · exact text_spells (.of_scan rfl)
  have hplan := runPlan_spells (p := singBoxInboundPlan) ⟨rfl, rfl, rfl⟩ hs.passing hsteps
  simpa [lineTokens] using hplan

theorem singBoxOutbound_spells {x : Value} {last : Bool} {o : String × String}
    (hs : s.Visits fs false x last) (htype : x.get "type" = .str o.1)
    (htag : x.get "tag" = .str o.2) :
    Gives (runPlan (n + 8) s singBoxOutboundPlan)
      (Spelling (lineTokens false last (outboundRecord o))) := by
  have hsteps : List.Forall₂ (fun st ts => Gives (runStep (n + 7) s st) (Spelling ts))
      singBoxOutboundPlan.steps
      [[.openRecord, .text "type", .colon], [.text o.1], [.comma, .text "tag", .colon],
        [.text o.2], [.closeRecord], if last then [] else [.comma], []] := by
    refine .cons ?_ (.cons ?_ (.cons ?_ (.cons ?_ (.cons ?_ (.cons ?_ (.cons ?_ .nil))))))
    · exact text_spells (.of_scan rfl)
    · exact quote_spells (gives_context hs.context (Value.walk_of_get htype nofun))
    · exact text_spells (.of_scan rfl)
    · exact quote_spells (gives_context hs.context (Value.walk_of_get htag nofun))
    · exact text_spells (.of_scan rfl)
    · exact comma_unless_last hs
    · exact text_spells (.of_scan rfl)
  have hplan := runPlan_spells (p := singBoxOutboundPlan) ⟨rfl, rfl, rfl⟩ hs.passing hsteps
  simpa [lineTokens, outboundRecord, Value.tokens, Value.fieldTokens, Value.isAbsent] using hplan

theorem experimental_spells {listen : String}
    (hlisten : (Value.obj fs).walk ["experimental", "v2rayApi", "listen"] = some (.str listen)) :
    Gives (runPlan (n + 7) (Scope.whole fs).inside experimentalPlan)
      (Spelling ([.comma, .text "experimental", .colon, .openRecord, .text "v2ray_api", .colon] ++
        (Section.v2rayApi listen (get fs "inbounds") (get fs "users")).tokens ++
          [.closeRecord])) := by
  have happly : ∀ is, List.Forall₂ IsData [.str listen, get fs "inbounds", get fs "users"] is →
      ∀ k, Helper.v2rayApiConfig.apply is k =
        .ok (pure (.data (Section.v2rayApi listen (get fs "inbounds") (get fs "users"))
          ⟨k, []⟩)) := by
    intro is his k
    obtain _ | ⟨⟨o, rfl⟩, _ | ⟨⟨o', rfl⟩, _ | ⟨⟨o'', rfl⟩, ⟨⟩⟩⟩⟩ := his
    simp [Helper.apply, textOf_str, Item.toValue, bind, Except.bind, pure]
  have hsteps : List.Forall₂
      (fun st ts => Gives (runStep (n + 6) (Scope.whole fs).inside st) (Spelling ts))
      experimentalPlan.steps
      [[.comma, .text "experimental", .colon, .openRecord, .text "v2ray_api", .colon],
        (Section.v2rayApi listen (get fs "inbounds") (get fs "users")).tokens,
        [.closeRecord]] := by
    have hinbounds : (Value.obj fs).walk ["inbounds"] = some (get fs "inbounds") := rfl
    have husers : (Value.obj fs).walk ["users"] = some (get fs "users") := rfl
    refine .cons ?_ (.cons ?_ (.cons ?_ .nil))
    · exact text_spells (.of_scan rfl)
    · exact json_spells (value_gives (.cons (gives_context isData_root hlisten)
        (.cons (gives_context isData_root hinbounds)
          (.cons (gives_context isData_root husers) .nil))) happly) rfl
        (Printer.record_closed .tight 0 _)
    · exact text_spells (.of_scan rfl)
  have hplan := runPlan_spells (p := experimentalPlan) ⟨rfl, rfl, rfl⟩ rfl hsteps
  simpa using hplan

/-- The tokens of the statistics interface, if the context asks for it. -/
def experimentalTokens (fs : Fields) (c : Context.View) : List Token :=
  match c.v2rayApi with
  | none => []
  | some listen =>
    [.comma, .text "experimental", .colon, .openRecord, .text "v2ray_api", .colon] ++
      (Section.v2rayApi listen (get fs "inbounds") (get fs "users")).tokens ++ [.closeRecord]

theorem experimental_step {c : Context.View} (hc : Context.Shows fs c) {l k : Nat} :
    Gives (runStep (n + 12) (.whole fs)
      (.around .ifTrue (.outward 0 ["experimental", "v2rayApi"] l k) experimentalPlan))
      (Spelling (experimentalTokens fs c)) := by
  obtain ⟨gs, hgs, hapi⟩ := hc.experimental
  have hwalk : ∀ names, (Value.obj fs).walk ("experimental" :: "v2rayApi" :: names) =
      (get gs "v2rayApi").walk names := fun names => by
    change (get fs "experimental").walk _ = _
    rw [hgs]
    rfl
  unfold experimentalTokens
  cases hv : c.v2rayApi with
  | none =>
      rw [hv] at hapi
      have hnothing : false = true → Gives (runPlan (n + 7) (Scope.whole fs).inside
        experimentalPlan) (Spelling []) := nofun
      exact if_spells grounded_whole ⟨rfl, rfl, rfl⟩ rfl
        (gives_context isData_root ((hwalk []).trans (congrArg some hapi)))
        (fun _ ⟨_, hi⟩ => hi ▸ rfl) hnothing
  | some listen =>
      rw [hv] at hapi
      obtain ⟨api, hrecord⟩ := Value.isRecord_iff.1 (Value.isRecord_of_get hapi nofun)
      exact if_spells grounded_whole ⟨rfl, rfl, rfl⟩ rfl
        (gives_context isData_root ((hwalk []).trans (congrArg some hrecord)))
        (fun _ ⟨_, hi⟩ => hi ▸ rfl) (b := true) fun _ =>
          experimental_spells ((hwalk ["listen"]).trans (Value.walk_of_get hapi nofun))

/-- The tokens that the steps of the default template for sing-box yield, step by step. -/
def singBoxPieces (fs : Fields) (c : Context.View) (natives : List Fields) : List (List Token) :=
  [[.openRecord, .text "log", .colon, .openRecord, .text "level", .colon],
    [.text c.logLevel],
    [.comma, .text "timestamp", .colon, .scalar (.bool true), .closeRecord, .comma, .text "dns",
      .colon],
    Section.dns.tokens,
    [.comma, .text "inbounds", .colon, .openArray],
    eachOf (fun last native => lineTokens false last (.obj native)) natives,
    [.closeArray, .comma, .text "outbounds", .colon, .openArray],
    eachOf (fun last o => lineTokens false last (outboundRecord o)) c.outbounds,
    [.closeArray, .comma, .text "route", .colon],
    (Section.route (get fs "inbounds")).tokens,
    experimentalTokens fs c,
    [.closeRecord]]

theorem singBoxPieces_flatten (c : Context.View) (natives : List Fields) :
    (singBoxPieces fs c natives).flatten = (Value.obj (singBoxSections fs c natives)).tokens := by
  have hdns : Section.dns.isAbsent = false := rfl
  have hroute : (Section.route (get fs "inbounds")).isAbsent = false := rfl
  have hapi : ∀ listen, (Section.v2rayApi listen (get fs "inbounds") (get fs "users")).isAbsent =
      false := fun _ => rfl
  cases hv : c.v2rayApi <;>
    simp [singBoxPieces, experimentalTokens, singBoxSections, Value.tokens, Value.fieldTokens,
      tokens_arr, eachOf_map, Value.isAbsent_of_ne, hdns, hroute, hapi, Value.ofOption, hv]

theorem singBoxPlan_spells {c : Context.View} (hc : Context.Shows fs c) {vs : List Value}
    {natives : List Fields} (hvs : get fs "inbounds" = .arr vs)
    (hnatives : List.Forall₂ (fun v native => v.isRecord = true ∧ Writes .singBox fs v native)
      vs natives) :
    Gives (runPlan (n + 14) (.whole fs) singBoxPlan)
      (Spelling (Value.obj (singBoxSections fs c natives)).tokens) := by
  obtain ⟨os, hos, houtbounds⟩ := hc.outbounds
  have hlevel : (Value.obj fs).walk ["server", "logLevel"] = some (.str c.logLevel) :=
    Value.walk_of_get hc.logLevel nofun
  have hsteps : List.Forall₂
      (fun st ts => Gives (runStep (n + 13) (Scope.whole fs) st) (Spelling ts))
      singBoxPlan.steps (singBoxPieces fs c natives) := by
    refine .cons ?_ (.cons ?_ (.cons ?_ (.cons ?_ (.cons ?_ (.cons ?_ (.cons ?_ (.cons ?_
      (.cons ?_ (.cons ?_ (.cons ?_ (.cons ?_ .nil)))))))))))
    · exact text_spells (.of_scan rfl)
    · exact quote_spells (gives_context isData_root hlevel)
    · exact text_spells (.of_scan rfl)
    · refine json_spells (value_gives .nil ?_) rfl (Printer.record_closed .tight 0 _)
      rintro _ ⟨⟩ k
      rfl
    · exact text_spells (.of_scan rfl)
    · refine each_spells ⟨rfl, rfl, rfl⟩ (gives_context isData_root (congrArg some hvs))
        (hnatives.imp fun v native h => ⟨h.1, fun last s hs => ?_⟩)
      exact singBoxInbound_spells hs h.2
    · exact text_spells (.of_scan rfl)
    · refine each_spells ⟨rfl, rfl, rfl⟩ (gives_context isData_root (congrArg some hos))
        (houtbounds.imp fun v o h => ⟨Value.isRecord_of_get h.1 nofun, fun last s hs => ?_⟩)
      exact singBoxOutbound_spells hs h.1 h.2
    · exact text_spells (.of_scan rfl)
    · refine json_spells (value_gives (.cons (gives_context isData_root rfl) .nil) ?_) rfl
        (Printer.record_closed .tight 0 _)
      intro is his k
      obtain _ | ⟨⟨o, rfl⟩, ⟨⟩⟩ := his
      rfl
    · exact experimental_step hc
    · exact text_spells (.of_scan rfl)
  rw [← singBoxPieces_flatten]
  exact runPlan_spells (p := singBoxPlan) ⟨rfl, rfl, rfl⟩ rfl hsteps

/-! ## Xray -/

/-- A part of the statistics interface of Xray, listening where it does by default. -/
def apiPart (name : String) : Value := (Section.xrayApi "").get name

/-- What the default template for Xray says, with listeners as they are written. -/
def xraySections (c : Context.View) (natives : List Fields) : Fields :=
  let api : Fields :=
    if c.statsEnabled then
      [("stats", .obj []), ("api", apiPart "api"), ("policy", apiPart "policy")]
    else []
  let apiInbounds := if c.statsEnabled then [apiPart "apiInbound"] else []
  [("log", .obj [("loglevel", .str c.logLevel)])] ++ api ++
    [("inbounds", .arr (natives.map .obj ++ apiInbounds)), ("outbounds", Section.xrayOutbounds),
      ("routing", Section.xrayRouting)]

theorem apiPart_gives (name : String) :
    Gives (evalOperand (n + 5) s (.apiPart name)) (IsData (apiPart name)) := by
  have hconfig : Gives (evalOperand (n + 3) s (.of .xrayApiConfig [.literal (.string "")]))
      (IsData (Section.xrayApi "")) := by
    refine value_gives (.cons (gives_literal _) .nil) ?_
    intro is his k
    obtain _ | ⟨⟨o, rfl⟩, ⟨⟩⟩ := his
    simp [Helper.apply, Literal.value, textOf_str, bind, Except.bind, pure]
  refine gives_call ?_
  rw [evalTag]
  · refine .bind (.mapM (.cons hconfig (.cons (gives_literal (.string name)) .nil)))
      fun is his => ?_
    obtain _ | ⟨⟨o, rfl⟩, _ | ⟨⟨o', rfl⟩, ⟨⟩⟩⟩ := his
    refine .bind (P := (· = [])) (.pure rfl) ?_
    rintro _ rfl
    refine .bind (P := (· = .none)) (.pure rfl) ?_
    rintro _ rfl
    rw [evalControl]
    refine .bind (P := (· = name)) (.ofShape (Value.display_str name) rfl) ?_
    rintro key rfl
    obtain ⟨i, hfield, hi⟩ := field_record _ o key
    cases hfield
    exact .pure hi
  · intro hreserved
    cases hreserved

theorem statsEnabled_gives {c : Context.View} (hc : Context.Shows fs c) {l k : Nat} :
    Gives (evalOperand (n + 1) (.whole fs) (.outward 0 ["server", "statsEnabled"] l k))
      (IsData (.bool c.statsEnabled)) :=
  gives_context isData_root (Value.walk_of_get hc.statsEnabled nofun)

/-- A comma stands behind every listener but the last one, and behind that one if more follows. -/
theorem comma_if_more {c : Context.View} (hc : Context.Shows fs c) {x : Value}
    {last outward : Bool} {l k l' k' : Nat} (hs : s.Visits fs outward x last) :
    Gives (runStep (n + 9) s (.around .ifTrue (.of .or [.of .not [.around ["last"] l k],
      .around ["root", "server", "statsEnabled"] l' k']) commaPlan))
      (Spelling (if !last || c.statsEnabled then [.comma] else [])) := by
  have hnot : Gives (evalOperand (n + 5) s (.of .not [.around ["last"] l k]))
      (IsData (.bool !last)) := by
    refine gives_call (helper_gives (.cons (gives_private hs.last ⟨_, rfl⟩ rfl) .nil)
      fun is his k => ?_)
    obtain _ | ⟨⟨o, rfl⟩, ⟨⟩⟩ := his
    cases last <;> exact ⟨_, rfl, _, rfl⟩
  have hstats : Gives (evalOperand (n + 5) s (.around ["root", "server", "statsEnabled"] l' k'))
      (IsData (.bool c.statsEnabled)) :=
    gives_private hs.root ⟨_, rfl⟩ (Value.walk_of_get hc.statsEnabled nofun)
  refine if_spells hs.grounded ⟨rfl, rfl, rfl⟩ rfl ?_ (holds_bool _) fun _ => comma_spells rfl
  refine gives_call (helper_gives (.cons hnot (.cons hstats .nil)) fun is his k => ?_)
  obtain _ | ⟨⟨o, rfl⟩, _ | ⟨⟨o', rfl⟩, ⟨⟩⟩⟩ := his
  cases last <;> cases c.statsEnabled <;> exact ⟨_, rfl, _, rfl⟩

theorem xrayInbound_spells {c : Context.View} (hc : Context.Shows fs c) {x : Value} {last : Bool}
    {native : Fields} (hs : s.Visits fs true x last) (hx : Writes .xray fs x native) :
    Gives (runPlan (n + 10) s xrayInboundPlan)
      (Spelling (lineTokens c.statsEnabled last (.obj native))) := by
  have hsteps : List.Forall₂ (fun st ts => Gives (runStep (n + 9) s st) (Spelling ts))
      xrayInboundPlan.steps
      [[], (Value.obj native).tokens, if !last || c.statsEnabled then [.comma] else [], []] := by
    refine .cons ?_ (.cons ?_ (.cons ?_ (.cons ?_ .nil)))
    · exact text_spells (.of_scan rfl)
    · exact json_spells (native_gives (e := .xray) hs hx) rfl
        (Printer.record_closed .tight 0 native)
    · exact comma_if_more hc hs
    · exact text_spells (.of_scan rfl)
  have hplan := runPlan_spells (p := xrayInboundPlan) ⟨rfl, rfl, rfl⟩ hs.passing hsteps
  have hcomma : (if !last || c.statsEnabled then [Token.comma] else []) =
      if last && !c.statsEnabled then [] else [.comma] := by
    cases last <;> cases c.statsEnabled <;> rfl
  rw [hcomma] at hplan
  simpa [lineTokens] using hplan

theorem apiPart_spells {name : String} (h : (apiPart name).isRecord = true) :
    Gives (runStep (n + 7) s (.put .json (.apiPart name))) (Spelling (apiPart name).tokens) := by
  obtain ⟨gs, hgs⟩ := Value.isRecord_iff.1 h
  have hclosed : Closed (Printer.value .tight 0 (apiPart name)) (apiPart name).tokens := by
    rw [hgs]
    exact Printer.record_closed .tight 0 gs
  exact json_spells (apiPart_gives name) (by rw [hgs]; rfl) hclosed

/-- The tokens of what stands before the listeners if there are statistics. -/
def apiTokens : List Token :=
  [.text "stats", .colon, .openRecord, .closeRecord, .comma, .text "api", .colon] ++
    (apiPart "api").tokens ++ [.comma, .text "policy", .colon] ++ (apiPart "policy").tokens ++
      [.comma]

theorem api_spells : Gives (runPlan (n + 8) (Scope.whole fs).inside apiPlan)
    (Spelling apiTokens) := by
  have hsteps : List.Forall₂
      (fun st ts => Gives (runStep (n + 7) (Scope.whole fs).inside st) (Spelling ts)) apiPlan.steps
      [[.text "stats", .colon, .openRecord, .closeRecord, .comma, .text "api", .colon],
        (apiPart "api").tokens, [.comma, .text "policy", .colon], (apiPart "policy").tokens,
        [.comma]] := by
    refine .cons ?_ (.cons ?_ (.cons ?_ (.cons ?_ (.cons ?_ .nil))))
    · exact text_spells (.of_scan rfl)
    · exact apiPart_spells (by decide)
    · exact text_spells (.of_scan rfl)
    · exact apiPart_spells (by decide)
    · exact text_spells (.of_scan rfl)
  have hplan := runPlan_spells (p := apiPlan) ⟨rfl, rfl, rfl⟩ rfl hsteps
  simpa [apiTokens] using hplan

theorem apiInbound_spells : Gives (runPlan (n + 8) (Scope.whole fs).inside apiInboundPlan)
    (Spelling (apiPart "apiInbound").tokens) := by
  have hsteps : List.Forall₂
      (fun st ts => Gives (runStep (n + 7) (Scope.whole fs).inside st) (Spelling ts))
      apiInboundPlan.steps [[], (apiPart "apiInbound").tokens, []] := by
    refine .cons ?_ (.cons ?_ (.cons ?_ .nil))
    · exact text_spells (.of_scan rfl)
    · exact apiPart_spells (by decide)
    · exact text_spells (.of_scan rfl)
  have hplan := runPlan_spells (p := apiInboundPlan) ⟨rfl, rfl, rfl⟩ rfl hsteps
  simpa using hplan

/-- The tokens that the steps of the default template for Xray yield, step by step. -/
def xrayPieces (c : Context.View) (natives : List Fields) : List (List Token) :=
  [[.openRecord, .text "log", .colon, .openRecord, .text "loglevel", .colon],
    [.text c.logLevel],
    [.closeRecord, .comma],
    if c.statsEnabled then apiTokens else [],
    [.text "inbounds", .colon, .openArray],
    eachOf (fun last native => lineTokens c.statsEnabled last (.obj native)) natives,
    if c.statsEnabled then (apiPart "apiInbound").tokens else [],
    [.closeArray, .comma, .text "outbounds", .colon],
    Section.xrayOutbounds.tokens,
    [.comma, .text "routing", .colon],
    Section.xrayRouting.tokens,
    [.closeRecord]]

theorem xrayPieces_flatten (c : Context.View) (natives : List Fields) :
    (xrayPieces c natives).flatten = (Value.obj (xraySections c natives)).tokens := by
  have hrecord : ∀ v : Value, v.isRecord = true → v.isAbsent = false := by
    intro v h
    obtain ⟨gs, rfl⟩ := Value.isRecord_iff.1 h
    rfl
  have hapi : (apiPart "api").isAbsent = false := hrecord _ (by decide)
  have hpolicy : (apiPart "policy").isAbsent = false := hrecord _ (by decide)
  have houtbounds : Section.xrayOutbounds.isAbsent = false := rfl
  have hrouting : Section.xrayRouting.isAbsent = false := rfl
  cases hstats : c.statsEnabled <;>
    simp [xrayPieces, apiTokens, xraySections, Value.tokens, Value.fieldTokens, tokens_arr,
      eachOf_snoc, eachOf_map, Value.isAbsent_of_ne, hapi, hpolicy, houtbounds, hrouting, hstats]

theorem xrayPlan_spells {c : Context.View} (hc : Context.Shows fs c) {vs : List Value}
    {natives : List Fields} (hvs : get fs "inbounds" = .arr vs)
    (hnatives : List.Forall₂ (fun v native => v.isRecord = true ∧ Writes .xray fs v native)
      vs natives) :
    Gives (runPlan (n + 17) (.whole fs) xrayPlan)
      (Spelling (Value.obj (xraySections c natives)).tokens) := by
  have hlevel : (Value.obj fs).walk ["server", "logLevel"] = some (.str c.logLevel) :=
    Value.walk_of_get hc.logLevel nofun
  have hsteps : List.Forall₂
      (fun st ts => Gives (runStep (n + 16) (Scope.whole fs) st) (Spelling ts))
      xrayPlan.steps (xrayPieces c natives) := by
    refine .cons ?_ (.cons ?_ (.cons ?_ (.cons ?_ (.cons ?_ (.cons ?_ (.cons ?_ (.cons ?_
      (.cons ?_ (.cons ?_ (.cons ?_ (.cons ?_ .nil)))))))))))
    · exact text_spells (.of_scan rfl)
    · exact quote_spells (gives_context isData_root hlevel)
    · exact text_spells (.of_scan rfl)
    · exact if_spells grounded_whole ⟨rfl, rfl, rfl⟩ rfl (statsEnabled_gives hc) (holds_bool _)
        fun _ => api_spells
    · exact text_spells (.of_scan rfl)
    · refine each_spells ⟨rfl, rfl, rfl⟩ (gives_context isData_root (congrArg some hvs))
        (hnatives.imp fun v native h => ⟨h.1, fun last s hs => ?_⟩)
      exact xrayInbound_spells hc hs h.2
    · exact if_spells grounded_whole ⟨rfl, rfl, rfl⟩ rfl (statsEnabled_gives hc) (holds_bool _)
        fun _ => apiInbound_spells
    · exact text_spells (.of_scan rfl)
    · refine json_spells (value_gives .nil ?_) rfl (Printer.array_closed .tight 0 _)
      rintro _ ⟨⟩ k
      rfl
    · exact text_spells (.of_scan rfl)
    · refine json_spells (value_gives .nil ?_) rfl (Printer.record_closed .tight 0 _)
      rintro _ ⟨⟩ k
      rfl
    · exact text_spells (.of_scan rfl)
  rw [← xrayPieces_flatten]
  exact runPlan_spells (p := xrayPlan) ⟨rfl, rfl, rfl⟩ rfl hsteps

end Template

end ProxyFleet
