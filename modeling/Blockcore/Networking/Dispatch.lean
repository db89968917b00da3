import Blockcore.Networking.Datagrams

/-!
# Decoding and dispatch

`Build` makes one dictionary of the handlers, and both ends of the way a message
goes use it: `Deserialize` asks it for the class of a command, `Process` for the
handlers.

Where handlers of equal commands handle the same class the two ends agree
(`decoding_dispatch_agree`): a decoded message goes to the handlers of its class,
and a command nobody declares is refused at either end.
-/

namespace Blockcore.Networking

open Lib

variable {Msg Ty : Type} [MessageClass Msg Ty] {σ : Type}

variable {pack : MessagePack Msg Ty} {handlers : List (Handler Msg Ty Exception σ)}

theorem groupOf_none {c : UInt16}
    (h : ∀ handler ∈ handlers, MessageClass.commandOf Msg handler.handles ≠ c) :
    groupOf c handlers = none := by
  have hnil : handlers.filter (·.declares c) = [] := by
    rw [List.filter_eq_nil_iff]
    intro handler hh
    rw [Handler.declares, beq_iff_eq]
    exact h handler hh
  rw [groupOf, hnil]

/-- A group is the handlers that declare the command, of which there is one, and
it has the class of one of them. -/
theorem groupOf_some {c : UInt16} {map : Map Ty (Handler Msg Ty Exception σ)}
    (h : groupOf c handlers = some map) : map.handlers = handlers.filter (·.declares c) ∧
      ∃ handler ∈ handlers, MessageClass.commandOf Msg handler.handles = c ∧
        map.messageType = handler.handles := by
  rw [groupOf] at h
  cases hf : handlers.filter (·.declares c) with
  | nil => rw [hf] at h; cases h
  | cons handler rest =>
    rw [hf] at h
    have hmem : handler ∈ handlers.filter (·.declares c) := by rw [hf]; exact List.mem_cons_self ..
    obtain ⟨hin, hd⟩ := List.mem_filter.mp hmem
    obtain rfl := Option.some.inj h
    exact ⟨rfl, handler, hin, beq_iff_eq.mp hd, rfl⟩

theorem groupOf_of_mem [DecidableEq Ty] (htype : ∀ h ∈ handlers, ∀ h' ∈ handlers,
      MessageClass.commandOf Msg h.handles = MessageClass.commandOf Msg h'.handles →
        h.handles = h'.handles) {handler : Handler Msg Ty Exception σ} (hh : handler ∈ handlers) :
    ∃ map, groupOf (MessageClass.commandOf Msg handler.handles) handlers = some map ∧
      map.messageType = handler.handles ∧
      map.handlers = handlers.filter (fun h => h.handles = handler.handles) := by
  cases hg : groupOf (MessageClass.commandOf Msg handler.handles) handlers with
  | none =>
    have hmem : handler ∈ handlers.filter (·.declares (MessageClass.commandOf Msg handler.handles)) :=
      List.mem_filter.mpr ⟨hh, by rw [Handler.declares, beq_self_eq_true]⟩
    rw [groupOf] at hg
    split at hg
    · next hnil => rw [hnil] at hmem; cases hmem
    · cases hg
  | some map =>
    obtain ⟨hgroup, first, hfirst, hc, hty⟩ := groupOf_some hg
    refine ⟨map, rfl, hty.trans (htype first hfirst handler hh hc), hgroup.trans ?_⟩
    refine List.filter_congr fun h hmem => ?_
    rw [Handler.declares, Bool.eq_iff_iff, beq_iff_eq, decide_eq_true_eq]
    exact ⟨fun he => htype h hmem handler hh he, fun he => by rw [he]⟩

/-- **What is decoded**: its class is that of the header's command. -/
theorem class_of_deserializeBytes (hpack : ∀ ty b m, pack.deserialize ty b = some (some m) →
    MessageClass.getType m = ty) {data : List UInt8} {m : Msg}
    (h : deserializeBytes pack (.grouped handlers) data = .ok (some m)) :
    ∃ handler ∈ handlers,
      MessageClass.commandOf Msg handler.handles = (frameHeader data).command ∧
      MessageClass.getType m = handler.handles := by
  by_cases hv : Versioned data
  · rw [deserializeBytes_eq pack _ hv, decodeBody, MessageMaps.getMessageType, MessageMaps.grouped] at h
    cases hg : groupOf (frameHeader data).command handlers with
    | none => simp [hg] at h
    | some map =>
      simp only [hg] at h
      obtain ⟨-, handler, hh, hc, ht⟩ := groupOf_some hg
      split at h
      · cases h
      · split at h
        · cases h
        · next m' hd =>
          obtain rfl := Except.ok.inj h
          exact ⟨handler, hh, hc, by rw [hpack _ _ _ hd, ht]⟩
  · obtain ⟨e, he⟩ := deserializeBytes_unversioned pack (.grouped handlers) hv
    rw [he] at h
    cases h

/-- **What is dispatched**: the message goes to the handlers of its command. -/
theorem process_grouped (m : Msg) (s : σ) : process (.grouped handlers) (some m) s =
    match groupOf (command m) handlers with
    | none => .thrown (.messageProcessing s!"No handlers for message {command m}") s
    | some map => Outcome.forEach (fun handler => handler.process m) map.handlers s := by
  cases hg : groupOf (command m) handlers with
  | none => simp [process, MessageMaps.contains, MessageMaps.grouped, hg]
  | some map => simp [process, MessageMaps.contains, MessageMaps.getMap, MessageMaps.grouped, hg]

variable (pack handlers)

/-- **Decoding and dispatch agree.** A decoded message has the header's command and
goes to the handlers of its class, each once and in their order; a command nobody
declares is refused by `Deserialize` and by `Process`, and no handler is called; and
what a handler handles is refused by neither. -/
theorem decoding_dispatch_agree [DecidableEq Ty]
    (maps : MessageMaps Ty (Handler Msg Ty Exception σ)) (hbuild : build handlers = .ok maps)
    (htype : ∀ h ∈ handlers, ∀ h' ∈ handlers,
      MessageClass.commandOf Msg h.handles = MessageClass.commandOf Msg h'.handles →
        h.handles = h'.handles)
    (hpack : ∀ ty b m, pack.deserialize ty b = some (some m) → MessageClass.getType m = ty) :
    (∀ data m, deserializeBytes pack maps data = .ok (some m) →
      command m = (frameHeader data).command ∧
      ∀ s, process maps (some m) s = Outcome.forEach (fun handler => handler.process m)
        (handlers.filter (fun handler => handler.handles = MessageClass.getType m)) s) ∧
    (∀ data, Versioned data →
      (∀ h ∈ handlers, MessageClass.commandOf Msg h.handles ≠ (frameHeader data).command) →
      deserializeBytes pack maps data = .error (.messageProcessing
        s!"There exists no registered messages types for the command {(frameHeader data).command}.")) ∧
    (∀ m s, (∀ h ∈ handlers, MessageClass.commandOf Msg h.handles ≠ command m) →
      process maps (some m) s =
        .thrown (.messageProcessing s!"No handlers for message {command m}") s) ∧
    ∀ handler ∈ handlers,
      (∀ data m, Versioned data →
        (frameHeader data).command = MessageClass.commandOf Msg handler.handles →
        0 ≤ (frameHeader data).size →
        pack.deserialize handler.handles ((frameBody data).take (frameHeader data).size.toNat) =
          some (some m) →
        deserializeBytes pack maps data = .ok (some m)) ∧
      ∀ m s, MessageClass.getType m = handler.handles →
        process maps (some m) s = Outcome.forEach (fun handler => handler.process m)
          (handlers.filter (fun h => h.handles = handler.handles)) s := by
  rw [build_eq] at hbuild
  obtain rfl := Except.ok.inj hbuild
  have hdispatch : ∀ handler ∈ handlers, ∀ m s, MessageClass.getType m = handler.handles →
      process (.grouped handlers) (some m) s = Outcome.forEach (fun handler => handler.process m)
        (handlers.filter (fun h => h.handles = handler.handles)) s := by
    intro handler hh m s ht
    obtain ⟨map, hg, -, hgroup⟩ := groupOf_of_mem htype hh
    rw [process_grouped, command, ht, hg, ← hgroup]
  refine ⟨fun data m hm => ?_, fun data hv hc => ?_, fun m s hc => ?_, fun handler hh => ⟨?_, ?_⟩⟩
  · obtain ⟨handler, hh, hc, ht⟩ := class_of_deserializeBytes hpack hm
    refine ⟨by rw [command, ht, hc], fun s => ?_⟩
    rw [hdispatch handler hh m s ht, ht]
  · rw [deserializeBytes_eq pack _ hv, decodeBody, MessageMaps.getMessageType, MessageMaps.grouped]
    dsimp only
    rw [groupOf_none hc]
  · rw [process_grouped, groupOf_none hc]
  · intro data m hv hc hsize hd
    obtain ⟨map, hg, hty, -⟩ := groupOf_of_mem htype hh
    rw [deserializeBytes_eq pack _ hv, decodeBody, MessageMaps.getMessageType, MessageMaps.grouped]
    simp only [hc, hg, hty, if_neg (Int.not_lt.mpr hsize), hd]
  · exact hdispatch handler hh

def numbered (type : MessageType) (n : Nat) : Handler BaseMessage MessageType Exception (List Nat) where
  handles := type
  process _ s := .done (s ++ [n])

/-- Two handlers of keep-alives, and one of another class between them. -/
def numberedHandlers : List (Handler BaseMessage MessageType Exception (List Nat)) :=
  [numbered .KeepAliveMessage 1, numbered .TestMessage 2, numbered .KeepAliveMessage 3]

theorem decoding_dispatch_agree_keepAlive :
    deserializeBytes keepAlivePack (.grouped numberedHandlers) keepAliveFrame.bytes =
        .ok (some keepAlive) ∧
      command keepAlive = (frameHeader keepAliveFrame.bytes).command ∧
      process (.grouped numberedHandlers) (some keepAlive) [] = .done [1, 3] := by
  have h := decoding_dispatch_agree keepAlivePack numberedHandlers _ (build_eq _) (by decide)
    fun ty b m hm => by
      obtain ⟨m', hm', -, hty⟩ := mem_of_tablePack_deserialize hm
      rw [Option.some.inj hm']
      exact hty
  have hread := (h.2.2.2 _ (List.mem_cons_self ..)).1 keepAliveFrame.bytes keepAlive rfl rfl
    (by decide) (by decide)
  have hprocess := h.1 _ _ hread
  exact ⟨hread, hprocess.1, hprocess.2 []⟩

end Blockcore.Networking
