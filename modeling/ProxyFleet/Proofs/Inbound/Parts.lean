import Mathlib.Data.List.Basic
import ProxyFleet.Inbound.Rules
import ProxyFleet.Noted
import ProxyFleet.Proofs.Value.Stable

/-!
# The parts of a listener that both engines treat alike

Three things are common to writing and reading a listener, whichever engine does it.
The numbers of a listener come back if they are finite. The header fields of a
transport come back if they were read before, as the host then is not among them and
they stand in enumeration order. And of a transport an engine keeps what its type has
a field for (`Transport.kept`) and drops the rest, without a note.
-/

namespace ProxyFleet

/-! ## Numbers -/

/-- The numbers of a listener: its port, that of the server it hands visitors to, and its
rates. -/
def Inbound.numbers (i : Inbound) : List Number :=
  i.listenPort :: (((i.tls.bind (·.reality)).bind (·.handshake)).toList.map (·.serverPort)
    ++ (i.multiplex.bind (·.brutal)).toList.flatMap fun b => [b.upMbps, b.downMbps])

/-! ## Shadowsocks -/

/-- A shadowsocks listener has a method, whatever is known of it. -/
theorem Inbound.shadowsocksMethod_ne (i : Inbound) : i.shadowsocksMethod ≠ "" := by
  have hclient : ((i.users.find? (·.method != "")).map (·.method)).getD defaultMethod ≠ "" := by
    cases hfound : i.users.find? (·.method != "") with
    | none => decide
    | some u => simpa using List.find?_some hfound
  unfold shadowsocksMethod firstText
  split
  · exact hclient
  · next hmethod => exact hmethod

/-! ## Header fields -/

namespace Transport

/-- Header fields as they are picked out of a record: in its order, and without the host. -/
structure HeadersRead (hs : List (String × String)) : Prop where
  order : Fields.InOrder hs
  names : ∀ h ∈ hs, h.1 ≠ "Host" ∧ h.1 ≠ "__proto__"

theorem hostAndHeaders_read {fs : Fields} (h : (Value.obj fs).Settled) :
    HeadersRead (hostAndHeaders fs).2 := by
  unfold hostAndHeaders
  dsimp only
  generalize hv : Fields.get fs "headers" = v
  have hsettled := hv ▸ h.get "headers"
  have hnone : HeadersRead ([].filter (·.1 != "Host")) := ⟨.nil, nofun⟩
  cases v with
  | obj gs =>
      obtain ⟨horder, -⟩ := Value.settled_obj.1 (hsettled.resolve_left nofun)
      refine ⟨List.Pairwise.filter _ (List.Pairwise.filterMap _ ?_ horder), fun f hf => ?_⟩
      · intro f g hfg f' hf' g' hg'
        split at hf'
        · cases hf'
        · split at hg'
          · cases hg'
          · obtain ⟨s, -, rfl⟩ := Option.map_eq_some_iff.1 hf'
            obtain ⟨t, -, rfl⟩ := Option.map_eq_some_iff.1 hg'
            exact hfg
      · obtain ⟨hf, hhost⟩ := List.mem_filter.1 hf
        obtain ⟨g, -, hg⟩ := List.mem_filterMap.1 hf
        split at hg
        · cases hg
        · next hproto =>
            obtain ⟨s, -, rfl⟩ := Option.map_eq_some_iff.1 hg
            exact ⟨bne_iff_ne.1 hhost, hproto⟩
  | _ => exact hnone

variable {t : Transport}

theorem headerFields_eq (h : HeadersRead t.headers) :
    t.headerFields = t.headers.map (fun f => (f.1, Value.str f.2))
      ++ (if t.host = "" then [] else [("Host", .str t.host)]) := by
  unfold headerFields
  dsimp only
  split
  · rw [List.append_nil]
  · have hnew : Fields.has (t.headers.map fun f => (f.1, Value.str f.2)) "Host" = false := by
      refine List.any_eq_false.2 fun f hf => ?_
      obtain ⟨g, hg, rfl⟩ := List.mem_map.1 hf
      simpa using (h.names g hg).1
    exact Fields.put_new hnew (by decide) _

theorem headerFields_stable (h : HeadersRead t.headers) : Fields.Stable t.headerFields := by
  have horder : Fields.InOrder (t.headers.map fun f => (f.1, Value.str f.2)) := by
    rw [Fields.InOrder, List.pairwise_map]
    exact h.order
  refine ⟨?_, fun f hf => ?_⟩
  · unfold headerFields
    dsimp only
    split
    · exact horder
    · exact horder.put _ _
  · have htext : ∃ s, f.2 = .str s := by
      rw [headerFields_eq h] at hf
      rcases List.mem_append.1 hf with hf | hf
      · obtain ⟨g, -, rfl⟩ := List.mem_map.1 hf
        exact ⟨g.2, rfl⟩
      · split at hf
        · cases hf
        · exact ⟨t.host, by rw [List.mem_singleton.1 hf]⟩
    obtain ⟨s, hs⟩ := htext
    rw [hs]
    exact Value.stable_str s

/-- The field of header fields, if there are any. -/
def headersPart (t : Transport) : Value :=
  if t.headerFields = [] then .absent else .obj t.headerFields

theorem headersPart_stable (h : HeadersRead t.headers) :
    t.headersPart = .absent ∨ t.headersPart.Stable := by
  unfold headersPart
  split
  · exact .inl rfl
  · exact .inr (headerFields_stable h).obj

theorem headersPart_told (t : Transport) : t.headersPart.told = t.headersPart := by
  unfold headersPart
  split <;> rfl

/-- From the header fields that are written of a web socket, its host and the others come back. -/
theorem hostAndHeaders_part (h : HeadersRead t.headers) {fs : Fields}
    (hheaders : Fields.get fs "headers" = t.headersPart)
    (hhost : Fields.get fs "host" = .absent) : hostAndHeaders fs = (t.host, t.headers) := by
  have hpart : t.headersPart.textMap = (Value.obj t.headerFields).textMap := by
    unfold headersPart
    split
    · next hempty =>
        rw [hempty]
        rfl
    · rfl
  have hmap : (Value.obj t.headerFields).textMap =
      t.headers ++ (if t.host = "" then [] else [("Host", t.host)]) := by
    rw [headerFields_eq h]
    change List.filterMap _ _ = _
    rw [List.filterMap_append, List.filterMap_map]
    congr 1
    · refine (List.filterMap_congr fun f hf => ?_).trans List.filterMap_some
      exact if_neg (h.names f hf).2
    · split <;> rfl
  have hfilter : t.headers.filter (·.1 != "Host") = t.headers :=
    List.filter_eq_self.2 fun f hf => bne_iff_ne.2 (h.names f hf).1
  have hlookup : t.headers.lookup "Host" = none :=
    List.lookup_eq_none_iff.2 fun f hf => by simpa using (h.names f hf).1.symm
  unfold hostAndHeaders
  rw [hheaders, hhost, hpart, hmap]
  dsimp only
  rw [List.filter_append, hfilter, List.lookup_append, hlookup]
  split
  · next hempty => simp [hempty, Value.textList]
  · simp

/-! ## What is kept of a transport -/

/-- What an engine that has a transport keeps of it. Header fields are kept of web sockets only,
the name of a service of gRPC only, and of QUIC nothing but its type. -/
def kept (t : Transport) : Transport :=
  if t.type = "ws" then { t with serviceName := "" }
  else if t.type = "grpc" then { Transport.ofType t.type with serviceName := t.serviceName }
  else if t.type = "quic" then Transport.ofType t.type
  else { Transport.ofType t.type with path := t.path, host := t.host }

@[simp] theorem kept_type (t : Transport) : t.kept.type = t.type := by
  unfold kept
  split
  · rfl
  · split
    · rfl
    · split <;> rfl

/-- A host that is written as a list of hosts. -/
theorem hostAndHeaders_host {fs : Fields} {host : String}
    (hheaders : Fields.get fs "headers" = .absent)
    (hhost : (Fields.get fs "host").textList = if host = "" then [] else [host]) :
    hostAndHeaders fs = (host, []) := by
  unfold hostAndHeaders
  rw [hheaders, hhost]
  split
  · next hempty => simp [Value.textMap, hempty]
  · simp [Value.textMap]

end Transport

end ProxyFleet
