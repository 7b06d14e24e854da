import ProxyFleet.Proofs.ConfigCheck
import ProxyFleet.Proofs.SingBox.Listeners
import ProxyFleet.Proofs.Template.Documents
import ProxyFleet.Proofs.Xray.Listeners

/-!
# Default templates render for every context

Whatever listeners, outbounds and subscribers a context shows, its default template
gives data, and the data have the listeners as their engine writes them
(`Template.default_renders`). A check of the text finds no errors in it unless a
listener has a port that is none.
-/

namespace ProxyFleet

attribute [local irreducible] Number.unitsPerOne Number.unitsLimit

/-! ## Records read twice -/

/-- What is read back is as reading leaves it. -/
theorem Value.reread_settled (v : Value) : v.reread.Settled :=
  ofCommentedText?_settled (ofCommentedText?_written .tight 0 v)

namespace Fields

variable {fs : Fields} {n : String} {v : Value}

/-- A field that is there is found in a record that was written and read twice. -/
theorem Holds.reread_twice (h : Holds fs n v) (hv : v ≠ .absent) :
    get (Value.rereadFields [] (Value.rereadFields [] fs)) n = v.reread.reread := by
  have hsettled : (Value.obj (Value.rereadFields [] fs)).Settled := by
    rw [← Value.reread]
    exact Value.reread_settled _
  have hfirst := Holds.get_of_nodup (Value.settled_obj.1 hsettled).1.nodup n
  rw [h.reread hv] at hfirst
  exact hfirst.reread (Value.reread_settled v).ne_absent

theorem Holds.stable_twice (h : Holds fs n v) (hv : v.Stable) :
    get (Value.rereadFields [] (Value.rereadFields [] fs)) n = v := by
  rw [h.reread_twice hv.present, hv.same, hv.same]

end Fields

namespace Template

open Fields

variable {e : Engine} {fs : Fields} {c : Context.View} {natives : List Fields}

/-! ## Listeners that are written -/

/-- An engine writes a listener, with the subscribers of a context for its clients. -/
def WritesFor (e : Engine) (ss : List Subscriber) (i : Inbound) (native : Fields) : Prop :=
  (e.writeInbound (i.withSubscribers ss) 0).value = some native

theorem exists_written (i : Inbound) (ss : List Subscriber)
    (h : e = .xray → i.type ∉ Xray.unservable) : ∃ native, WritesFor e ss i native := by
  cases e with
  | singBox => exact ⟨_, rfl⟩
  | xray =>
      have hserved : (i.withSubscribers ss).type ∉ Xray.unservable := h rfl
      exact ⟨_, congrArg Noted.value (Xray.writeInbound_written hserved 0)⟩

/-- The listeners of a context are written one by one. -/
theorem natives_written (hc : Context.Shows fs c)
    (hserved : e = .xray → ∀ i ∈ c.inbounds, i.type ∉ Xray.unservable) :
    ∃ vs natives, get fs "inbounds" = .arr vs ∧
      List.Forall₂ (WritesFor e c.subscribers) c.inbounds natives ∧
      List.Forall₂ (fun v native => v.isRecord = true ∧ Writes e fs v native) vs natives := by
  obtain ⟨us, hus, hsubscribers⟩ := hc.users
  obtain ⟨vs, hvs, hinbounds⟩ := hc.inbounds
  suffices h : ∃ natives, List.Forall₂ (WritesFor e c.subscribers) c.inbounds natives ∧
      List.Forall₂ (fun v native => v.isRecord = true ∧ Writes e fs v native) vs natives by
    obtain ⟨natives, h, h'⟩ := h
    exact ⟨vs, natives, hvs, h, h'⟩
  generalize c.inbounds = is at hserved hinbounds
  clear hvs
  induction hinbounds with
  | nil => exact ⟨[], .nil, .nil⟩
  | @cons v i vs is hvi _ ih =>
      obtain ⟨natives, h, h'⟩ := ih fun he i hi => hserved he i (List.mem_cons_of_mem _ hi)
      obtain ⟨native, hnative⟩ := exists_written i c.subscribers fun he =>
        hserved he i List.mem_cons_self
      obtain ⟨gs, hrecord⟩ := (Inbound.reads_iff.1 hvi.2).isRecord
      have hwrites : Writes e fs v native := by
        rw [Writes, hus]
        exact Engine.writeFor_native hvi.1 hvi.2 nofun (hsubscribers ▸ hnative)
      exact ⟨native :: natives, .cons hnative h, .cons ⟨hrecord ▸ rfl, hwrites⟩ h'⟩

/-! ## What is rendered -/

/-- The sections of what the default template for an engine says, with listeners as they are
written. -/
def sections (e : Engine) (fs : Fields) (c : Context.View) (natives : List Fields) : Fields :=
  match e with
  | .singBox => singBoxSections fs c natives
  | .xray => xraySections c natives

theorem default_gives (hc : Context.Shows fs c)
    (hserved : e = .xray → ∀ i ∈ c.inbounds, i.type ∉ Xray.unservable) :
    ∃ natives, List.Forall₂ (WritesFor e c.subscribers) c.inbounds natives ∧
      (render (default e) (.obj fs)).result =
        .ok (Value.obj (sections e fs c natives)).reread.spreadText := by
  obtain ⟨vs, natives, hvs, hnatives, hwrites⟩ := natives_written hc hserved
  refine ⟨natives, hnatives, ?_⟩
  cases e with
  | singBox =>
      exact render_of_plan planOf?_singBoxDefault ⟨rfl, rfl, rfl⟩ rfl
        (singBoxPlan_spells hc hvs hwrites)
  | xray =>
      exact render_of_plan planOf?_xrayDefault ⟨rfl, rfl, rfl⟩ rfl
        (xrayPlan_spells hc hvs hwrites)

/-! ## Sections -/

/-- The listener of the statistics interface, which the default template for Xray puts behind the
others if there are statistics. -/
def apiInbounds (e : Engine) (c : Context.View) : List Value :=
  if e = .xray ∧ c.statsEnabled = true then [apiPart "apiInbound"] else []

variable (e fs c natives) in
theorem sections_nodup : ((sections e fs c natives).map Prod.fst).Nodup := by
  cases e with
  | singBox =>
      exact (by decide : ["log", "dns", "inbounds", "outbounds", "route", "experimental"].Nodup)
  | xray =>
      unfold sections xraySections
      cases c.statsEnabled with
      | false => exact (by decide : ["log", "inbounds", "outbounds", "routing"].Nodup)
      | true =>
          exact (by decide :
            ["log", "stats", "api", "policy", "inbounds", "outbounds", "routing"].Nodup)

theorem get_inbounds : get (sections e fs c natives) "inbounds" =
    .arr (natives.map .obj ++ apiInbounds e c) := by
  cases e with
  | singBox =>
      rw [apiInbounds, if_neg nofun, List.append_nil]
      rfl
  | xray =>
      unfold sections xraySections apiInbounds
      cases c.statsEnabled <;> rfl

/-- The listener of the statistics interface, where it listens by default. -/
def apiInbound : Fields :=
  [("tag", .str "api"), ("port", .num 10085), ("listen", .str "127.0.0.1"),
    ("protocol", .str "dokodemo-door"), ("settings", .obj [("address", .str "127.0.0.1")])]

theorem apiPart_inbound : apiPart "apiInbound" = .obj apiInbound := by
  have hlisten : firstText "" Context.statsListen = "127.0.0.1:10085" := rfl
  have hparts : Section.hostAndPort "127.0.0.1:10085" = ("127.0.0.1", 10085) := by decide +kernel
  unfold apiPart Section.xrayApi
  rw [hlisten]
  dsimp only
  rw [hparts]
  rfl

/-! ## Checks -/

open ConfigCheck

theorem stable_inPorts {n : Number} (h : n.InPorts) : (Value.num n).Stable :=
  ⟨nofun, by rw [Value.reread, Number.reread_eq h.isDouble h.isFinite]⟩

/-- A listener with a type, a tag and a port passes the check wherever it was written. -/
theorem fits_twice {gs : Fields} {type port t tag : String} {n : Number}
    (htype : Holds gs type (.str t)) (htag : Holds gs "tag" (.str tag))
    (hport : Holds gs port (.num n)) (hn : n.InPorts) :
    InboundFits type port (Value.obj gs).reread.reread := by
  have htype := htype.stable_twice (Value.stable_str t)
  have htag := htag.stable_twice (Value.stable_str tag)
  have hport := hport.stable_twice (stable_inPorts hn)
  rw [Value.reread, Value.reread]
  refine ⟨has_of_get_ne_absent ?_, has_of_get_ne_absent ?_, ?_⟩
  · rw [htype]
    nofun
  · rw [htag]
    nofun
  · rw [hport]
    exact badPort?_inPorts hn

theorem singBox_fits {ss : List Subscriber} {i : Inbound} {native : Fields}
    (h : WritesFor .singBox ss i native) (hport : i.listenPort.InPorts) :
    InboundFits "type" "listen_port" (Value.obj native).reread.reread := by
  cases h
  exact fits_twice (SingBox.head_written _ 0 (by decide)) (SingBox.head_written _ 0 (by decide))
    (SingBox.head_written _ 0 (by decide)) hport

theorem xray_fits {ss : List Subscriber} {i : Inbound} {native : Fields}
    (h : WritesFor .xray ss i native) (hport : i.listenPort.InPorts) :
    InboundFits "protocol" "port" (Value.obj native).reread.reread := by
  have hwritten := Xray.writeInbound_written (Xray.servable_of_written h) 0
  have hnative := h.symm.trans (congrArg Noted.value hwritten)
  cases hnative
  exact fits_twice (Xray.head_holds _ (by decide)) (Xray.head_holds _ (by decide))
    (Xray.head_holds _ (by decide)) hport

theorem apiInbound_fits : InboundFits "protocol" "port" (apiPart "apiInbound").reread.reread := by
  have hport : (10085 : Number).InPorts := Number.inPorts_ofInt (by decide) (by decide)
  have hnames : (apiInbound.map Prod.fst).Nodup :=
    (by decide : ["tag", "port", "listen", "protocol", "settings"].Nodup)
  have hholds := Holds.get_of_nodup hnames
  rw [apiPart_inbound]
  exact fits_twice (hholds "protocol") (hholds "tag") (hholds "port") hport

theorem natives_fit {type port : String} {ss : List Subscriber} {is : List Inbound}
    (hnatives : List.Forall₂ (WritesFor e ss) is natives)
    (hfits : ∀ i native, WritesFor e ss i native → i.listenPort.InPorts →
      InboundFits type port (Value.obj native).reread.reread)
    (hports : ∀ i ∈ is, i.listenPort.InPorts) :
    ∀ native ∈ natives, InboundFits type port (Value.obj native).reread.reread := by
  induction hnatives with
  | nil => nofun
  | @cons i native is natives h _ ih =>
      intro gs hgs
      rcases List.mem_cons.1 hgs with rfl | hgs
      · exact hfits _ _ h (hports _ List.mem_cons_self)
      · exact ih (fun i hi => hports i (List.mem_cons_of_mem _ hi)) gs hgs

theorem outboundRecord_stable (o : String × String) : (outboundRecord o).Stable := by
  refine (Fields.stable_of_names ["type", "tag"] rfl (by decide) ?_).obj
  simp [Value.stable_str]

/-- The listeners in what is rendered pass the check if all listeners have ports. -/
theorem inbounds_fit {type port : String}
    (hnatives : List.Forall₂ (WritesFor e c.subscribers) c.inbounds natives)
    (hfits : ∀ i native, WritesFor e c.subscribers i native → i.listenPort.InPorts →
      InboundFits type port (Value.obj native).reread.reread)
    (hapi : ∀ v ∈ apiInbounds e c, InboundFits type port v.reread.reread)
    (hports : ∀ i ∈ c.inbounds, i.listenPort.InPorts) :
    Lists (InboundFits type port)
      (Value.arr (natives.map .obj ++ apiInbounds e c)).reread.reread := by
  have hall := natives_fit hnatives hfits hports
  rw [Value.reread, Value.reread, Value.rereadItems_eq_map, Value.rereadItems_eq_map, List.map_map]
  intro v hv
  obtain ⟨w, hw, rfl⟩ := List.mem_map.1 hv
  rcases List.mem_append.1 hw with hw | hw
  · obtain ⟨native, hnative, rfl⟩ := List.mem_map.1 hw
    exact hall native hnative
  · exact hapi w hw

variable (fs) in
theorem sections_fit (hnatives : List.Forall₂ (WritesFor e c.subscribers) c.inbounds natives)
    (hports : ∀ i ∈ c.inbounds, i.listenPort.InPorts) :
    Fits e (Value.rereadFields [] (Value.rereadFields [] (sections e fs c natives))) := by
  have hholds := Holds.get_of_nodup (sections_nodup e fs c natives)
  have hinbounds := (hholds "inbounds").reread_twice (by rw [get_inbounds]; nofun)
  rw [get_inbounds] at hinbounds
  cases e with
  | singBox =>
      have houtbounds : Holds (sections .singBox fs c natives) "outbounds"
          (.arr (c.outbounds.map outboundRecord)) := hholds "outbounds"
      have hstable : (Value.arr (c.outbounds.map outboundRecord)).Stable :=
        Value.stable_arr fun v hv => by
          obtain ⟨o, -, rfl⟩ := List.mem_map.1 hv
          exact outboundRecord_stable o
      refine ⟨?_, ?_⟩
      · rw [hinbounds]
        exact inbounds_fit hnatives (fun _ _ => singBox_fits) (by simp [apiInbounds]) hports
      · rw [houtbounds.stable_twice hstable]
        intro v hv
        obtain ⟨o, -, rfl⟩ := List.mem_map.1 hv
        exact ⟨rfl, rfl⟩
  | xray =>
      change Lists _ _
      rw [hinbounds]
      refine inbounds_fit hnatives (fun _ _ => xray_fits) (fun v hv => ?_) hports
      unfold apiInbounds at hv
      split at hv
      · rw [List.mem_singleton.1 hv]
        exact apiInbound_fits
      · cases hv

/-! ## Default templates -/

/-- Whatever listeners a context shows, if its engine can serve them, the default template is
rendered as the text of data. They list the listeners in order, each as its engine writes it for
the subscribers; behind them stands that of the statistics interface, for Xray and if there are
statistics. For sing-box, they have a statistics interface if the context asks for one. Where all
listeners have ports, the text passes the check. -/
theorem default_renders (hc : Context.Shows fs c)
    (hserved : e = .xray → ∀ i ∈ c.inbounds, i.type ∉ Xray.unservable) :
    ∃ (doc : Value) (natives : List Fields),
      (render (default e) (.obj fs)).result = .ok doc.spreadText ∧
      Value.ofText? doc.spreadText = some doc.reread ∧ (doc.isData = true → doc.reread = doc) ∧
      List.Forall₂ (fun i native =>
        (e.writeInbound (i.withSubscribers c.subscribers) 0).value = some native)
        c.inbounds natives ∧
      doc.get "inbounds" = .arr ((natives.map Value.obj ++ apiInbounds e c).map Value.reread) ∧
      (e = .singBox → (doc.get "experimental" ≠ .absent ↔ c.v2rayApi ≠ none)) ∧
      ((∀ i ∈ c.inbounds, i.listenPort.InPorts) →
        (checkConfig doc.spreadText e.name).valid = true) := by
  obtain ⟨natives, hnatives, hrender⟩ := default_gives hc hserved
  have hholds := Holds.get_of_nodup (sections_nodup e fs c natives)
  have hread : ∀ v : Value, Value.ofText? v.spreadText = some v.reread := Value.ofText?_written _ 0
  refine ⟨_, natives, hrender, hread _, (Value.reread_settled _).reread, hnatives, ?_, ?_, ?_⟩
  · have hinbounds := (hholds "inbounds").reread (by rw [get_inbounds]; nofun)
    rw [Value.reread]
    refine hinbounds.trans ?_
    rw [get_inbounds, Value.reread, Value.rereadItems_eq_map]
  · rintro rfl
    have hexperimental : Holds (sections .singBox fs c natives) "experimental"
        (.ofOption (fun listen => .obj [("v2ray_api",
          Section.v2rayApi listen (get fs "inbounds") (get fs "users"))]) c.v2rayApi) :=
      hholds "experimental"
    have hget := hexperimental.reread_part
    rw [Value.reread]
    change get _ _ ≠ _ ↔ _
    rw [hget]
    cases c.v2rayApi <;> simp [Value.ofOption]
  · intro hports
    refine checkConfig_valid.2 ⟨_, ?_, sections_fit fs hnatives hports⟩
    rw [hread, Value.reread, Value.reread]

/-- What is shown by the context that is made for listeners and subscribers. -/
def madeView (is : List Inbound) (users : List Value) : Context.View where
  inbounds := is
  outbounds := [("direct", "direct"), ("block", "block")]
  subscribers := Subscriber.listOf (.arr users)
  logLevel := "info"
  statsEnabled := true
  v2rayApi := some Context.statsListen

theorem shows_made {vs : List Value} {is : List Inbound}
    (h : List.Forall₂ (fun v i => v.isInbound = true ∧ Inbound.ofValue? v = some i) vs is)
    (users : List Value) (agent : Value) :
    Context.Shows (Context.make vs users agent) (madeView is users) where
  inbounds := ⟨vs, rfl, h⟩
  outbounds := ⟨_, rfl, .cons ⟨rfl, rfl⟩ (.cons ⟨rfl, rfl⟩ .nil)⟩
  users := ⟨users, rfl, rfl⟩
  logLevel := rfl
  statsEnabled := rfl
  experimental := ⟨_, rfl, rfl⟩

/-- A context with one listener and one subscriber. -/
def oneListener : Fields :=
  Context.make [Context.sampleShadowsocks.toValue]
    [Context.sampleUser "1" "id" "user@example.com"] .null

/-- What is shown by the context with one listener. -/
def oneListenerView : Context.View :=
  madeView [Context.sampleShadowsocks] [Context.sampleUser "1" "id" "user@example.com"]

theorem default_renders_one : Context.Shows oneListener oneListenerView ∧
    (∀ i ∈ oneListenerView.inbounds, i.type ∉ Xray.unservable) ∧
    ∃ doc : Value, (render (default .xray) (.obj oneListener)).result = .ok doc.spreadText ∧
      (checkConfig doc.spreadText "xray").valid = true := by
  have hrecord : Context.sampleShadowsocks.toValue.isInbound = true :=
    (Inbound.reads_toValue _).isInbound rfl
  have hshows : Context.Shows oneListener oneListenerView :=
    shows_made (.cons ⟨hrecord, Inbound.ofValue?_toValue _⟩ .nil) _ _
  have hserved : ∀ i ∈ oneListenerView.inbounds, i.type ∉ Xray.unservable := by decide
  have hport : Number.InPorts 8388 := Number.inPorts_ofInt (by decide) (by decide)
  obtain ⟨doc, _, hrender, -, -, -, -, -, hvalid⟩ :=
    default_renders (e := .xray) hshows fun _ => hserved
  exact ⟨hshows, hserved, doc, hrender, hvalid (List.forall_mem_singleton.2 hport)⟩

end Template

end ProxyFleet
