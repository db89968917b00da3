import Blockcore.Lib.Outcome

/-!
# Message classes, maps and dispatch

`MessageMaps` is the dictionary from a command to the message class that carries
it and the handlers that take it.  `build` fills it from a list of handlers and
`process` hands a message to the handlers of its command.  Hub and gateway have
one such pair each, equal line by line, so there is one here.

`build_eq` says what is in it for any list of handlers: under a command the handlers
that declare it, in their order, and the class of the first of them.

Everything is generic in the message classes: what the code asks of a message
is its runtime class and that class's command (`MessageClass`).
-/

namespace Blockcore.Networking

open Lib

/-- The exceptions that occur.  Those of the framework carry no text here; the
texts of the repository's own are theirs. -/
inductive Exception where
  | exception (message : String)
  | messageProcessing (message : String)
  | argument
  | argumentNull (paramName : String)
  | argumentOutOfRange
  | endOfStream
  | format
  | invalidCast
  | io
  | keyNotFound
  | messagePack
  | nullReference
  | objectDisposed
  | socket
  deriving DecidableEq, Repr

/-- The message classes: the runtime class of a message (`GetType`), and the
`Command` each class overrides. -/
class MessageClass (Msg : Type) (Ty : outParam Type) where
  getType : Msg → Ty
  commandOf : Ty → UInt16

/-- `message.Command`. -/
def command {Msg Ty : Type} [MessageClass Msg Ty] (message : Msg) : UInt16 :=
  MessageClass.commandOf Msg (MessageClass.getType message)

/-- `Map`. -/
structure Map (Ty H : Type) where
  command : UInt16
  messageType : Ty
  handlers : List H

/-- `MessageMaps`: `Dictionary<ushort, Map>`. -/
structure MessageMaps (Ty H : Type) where
  maps : UInt16 → Option (Map Ty H)

namespace MessageMaps

variable {Ty H : Type}

def empty : MessageMaps Ty H := ⟨fun _ => none⟩

def contains (maps : MessageMaps Ty H) (command : UInt16) : Bool := (maps.maps command).isSome

/-- `Dictionary.Add` refuses a key that is there. -/
def addCommand (maps : MessageMaps Ty H) (command : UInt16) (map : Map Ty H) :
    Except Exception (MessageMaps Ty H) :=
  if maps.contains command then .error .argument
  else .ok ⟨Function.update maps.maps command (some map)⟩

def getMap (maps : MessageMaps Ty H) (command : UInt16) : Except Exception (Map Ty H) :=
  match maps.maps command with
  | none => .error .keyNotFound
  | some map => .ok map

def addHandler (maps : MessageMaps Ty H) (command : UInt16) (handler : H) :
    Except Exception (MessageMaps Ty H) :=
  (maps.getMap command).map (fun map =>
    ⟨Function.update maps.maps command (some { map with handlers := map.handlers ++ [handler] })⟩)

def getMessageType (maps : MessageMaps Ty H) (command : UInt16) : Except Exception Ty :=
  match maps.maps command with
  | none => .error (.messageProcessing
      s!"There exists no registered messages types for the command {command}.")
  | some map => .ok map.messageType

/-- The class a command stands for, if it is registered. -/
def typeOf? (maps : MessageMaps Ty H) (command : UInt16) : Option Ty :=
  (maps.maps command).map Map.messageType

theorem getMessageType_of_some {maps : MessageMaps Ty H} {c : UInt16} {ty : Ty}
    (h : maps.typeOf? c = some ty) : maps.getMessageType c = .ok ty := by
  rw [typeOf?, Option.map_eq_some_iff] at h
  obtain ⟨map, hm, rfl⟩ := h
  rw [getMessageType, hm]

theorem getMessageType_of_none {maps : MessageMaps Ty H} {c : UInt16}
    (h : maps.typeOf? c = none) : ∃ e, maps.getMessageType c = .error e := by
  rw [typeOf?, Option.map_eq_none_iff] at h
  exact ⟨_, by rw [getMessageType, h]⟩

end MessageMaps

/-! ### Build and Process -/

/-- A handler: the class it declares with `IHandle`, and its `Process`. -/
structure Handler (Msg Ty ε σ : Type) where
  handles : Ty
  process : Msg → σ → Outcome ε σ

variable {Msg Ty : Type} [MessageClass Msg Ty] {σ : Type}

/-- One round of the loop of `Build`. -/
def buildStep (maps : MessageMaps Ty (Handler Msg Ty Exception σ))
    (handler : Handler Msg Ty Exception σ) :
    Except Exception (MessageMaps Ty (Handler Msg Ty Exception σ)) :=
  let cmd := MessageClass.commandOf Msg handler.handles
  if !maps.contains cmd then
    maps.addCommand cmd ⟨cmd, handler.handles, [handler]⟩
  else
    maps.addHandler cmd handler

/-- `HubMessageProcessing.Build`, `GatewayMessageProcessing.Build`. -/
def build (messageHandlers : List (Handler Msg Ty Exception σ)) :
    Except Exception (MessageMaps Ty (Handler Msg Ty Exception σ)) :=
  messageHandlers.foldlM buildStep MessageMaps.empty

/-- `HubMessageProcessing.Process`, `GatewayMessageProcessing.Process`; `none`
is the null message. -/
def process (maps : MessageMaps Ty (Handler Msg Ty Exception σ)) (message : Option Msg) (s : σ) :
    Outcome Exception σ :=
  match message with
  | none => .thrown (.argumentNull "message") s
  | some m =>
    if !maps.contains (command m) then
      .thrown (.messageProcessing s!"No handlers for message {command m}") s
    else
      match maps.getMap (command m) with
      | .error e => .thrown e s
      | .ok map => Outcome.forEach (fun handler => handler.process m) map.handlers s

def Handler.declares (handler : Handler Msg Ty Exception σ) (c : UInt16) : Bool :=
  MessageClass.commandOf Msg handler.handles == c

/-- The handlers of a command, under the class of the first. -/
def groupOf (c : UInt16) (handlers : List (Handler Msg Ty Exception σ)) :
    Option (Map Ty (Handler Msg Ty Exception σ)) :=
  match handlers.filter (·.declares c) with
  | [] => none
  | handler :: rest => some ⟨c, handler.handles, handler :: rest⟩

def MessageMaps.grouped (handlers : List (Handler Msg Ty Exception σ)) :
    MessageMaps Ty (Handler Msg Ty Exception σ) := ⟨fun c => groupOf c handlers⟩

theorem groupOf_concat (c : UInt16) (handlers : List (Handler Msg Ty Exception σ))
    (handler : Handler Msg Ty Exception σ) : groupOf c (handlers ++ [handler]) =
      if handler.declares c then
        match groupOf c handlers with
        | none => some ⟨c, handler.handles, [handler]⟩
        | some map => some { map with handlers := map.handlers ++ [handler] }
      else groupOf c handlers := by
  rw [groupOf, List.filter_append, groupOf]
  by_cases hd : handler.declares c = true
  · have hone : [handler].filter (·.declares c) = [handler] := by simp [hd]
    rw [if_pos hd, hone]
    cases handlers.filter (·.declares c) <;> rfl
  · have hnone : [handler].filter (·.declares c) = [] := by simp [hd]
    rw [if_neg hd, hnone, List.append_nil]

theorem buildStep_grouped (handlers : List (Handler Msg Ty Exception σ))
    (handler : Handler Msg Ty Exception σ) :
    buildStep (.grouped handlers) handler = .ok (.grouped (handlers ++ [handler])) := by
  have hother : ∀ c, c ≠ MessageClass.commandOf Msg handler.handles →
      groupOf c (handlers ++ [handler]) = groupOf c handlers := by
    intro c hc
    rw [groupOf_concat, if_neg]
    rw [Handler.declares, beq_iff_eq]
    exact fun h => hc h.symm
  have hself := groupOf_concat (MessageClass.commandOf Msg handler.handles) handlers handler
  rw [if_pos (by rw [Handler.declares, beq_self_eq_true])] at hself
  cases hg : groupOf (MessageClass.commandOf Msg handler.handles) handlers with
  | none =>
    rw [hg] at hself
    simp only [buildStep, MessageMaps.contains, MessageMaps.grouped, hg, MessageMaps.addCommand,
      Option.isSome_none, Bool.not_false, if_true, Bool.false_eq_true, if_false]
    refine congrArg Except.ok (congrArg MessageMaps.mk (funext fun c => ?_))
    by_cases hc : c = MessageClass.commandOf Msg handler.handles
    · rw [hc, Function.update_self, hself]
    · rw [Function.update_of_ne hc, hother c hc]
  | some map =>
    rw [hg] at hself
    simp only [buildStep, MessageMaps.contains, MessageMaps.grouped, hg, MessageMaps.addHandler,
      MessageMaps.getMap, Option.isSome_some, Bool.not_true, Bool.false_eq_true, if_false, Except.map]
    refine congrArg Except.ok (congrArg MessageMaps.mk (funext fun c => ?_))
    by_cases hc : c = MessageClass.commandOf Msg handler.handles
    · rw [hc, Function.update_self, hself]
    · rw [Function.update_of_ne hc, hother c hc]

theorem build_eq (handlers : List (Handler Msg Ty Exception σ)) :
    build handlers = .ok (.grouped handlers) := by
  have key : ∀ bs as : List (Handler Msg Ty Exception σ),
      bs.foldlM buildStep (MessageMaps.grouped as) = .ok (.grouped (as ++ bs)) := by
    intro bs
    induction bs with
    | nil => intro as; rw [List.append_nil]; rfl
    | cons b bs ih =>
      intro as
      rw [List.foldlM_cons, buildStep_grouped]
      have := ih (as ++ [b])
      rwa [List.append_assoc] at this
  exact key handlers []

/-- **No handler list makes `Build` fail**: it asks `Contains` before it adds. -/
theorem build_isOk (messageHandlers : List (Handler Msg Ty Exception σ)) :
    ∃ maps, build messageHandlers = .ok maps := ⟨_, build_eq messageHandlers⟩

/-- The dictionary for handlers of distinct commands. -/
def MessageMaps.ofHandlers (messageHandlers : List (Handler Msg Ty Exception σ)) :
    MessageMaps Ty (Handler Msg Ty Exception σ) :=
  ⟨fun c => (messageHandlers.find? (fun h => MessageClass.commandOf Msg h.handles == c)).map
    (fun h => ⟨c, h.handles, [h]⟩)⟩

theorem MessageMaps.ofHandlers_maps (messageHandlers : List (Handler Msg Ty Exception σ))
    (c : UInt16) : (MessageMaps.ofHandlers messageHandlers).maps c =
      (messageHandlers.find? (fun h => MessageClass.commandOf Msg h.handles == c)).map
        (fun h => ⟨c, h.handles, [h]⟩) := rfl

theorem grouped_of_nodup {messageHandlers : List (Handler Msg Ty Exception σ)}
    (h : (messageHandlers.map (fun h => MessageClass.commandOf Msg h.handles)).Nodup) :
    MessageMaps.grouped messageHandlers = MessageMaps.ofHandlers messageHandlers := by
  refine congrArg MessageMaps.mk (funext fun c => ?_)
  show groupOf c messageHandlers =
    (messageHandlers.find? (·.declares c)).map fun h => ⟨c, h.handles, [h]⟩
  induction messageHandlers with
  | nil => rfl
  | cons handler rest ih =>
    rw [List.map_cons, List.nodup_cons] at h
    rw [groupOf, List.filter_cons, List.find?_cons]
    cases hd : handler.declares c with
    | true =>
      have hrest : rest.filter (·.declares c) = [] := by
        rw [List.filter_eq_nil_iff]
        intro other hmem hother
        rw [Handler.declares, beq_iff_eq] at hd hother
        rw [hd, ← hother] at h
        exact h.1 (List.mem_map_of_mem hmem)
      rw [if_pos rfl, hrest]
      rfl
    | false =>
      rw [if_neg (by simp)]
      exact ih h.2

/-- **Handlers of distinct commands** are each found under their own. -/
theorem build_of_nodup {messageHandlers : List (Handler Msg Ty Exception σ)}
    (h : (messageHandlers.map (fun h => MessageClass.commandOf Msg h.handles)).Nodup) :
    build messageHandlers = .ok (MessageMaps.ofHandlers messageHandlers) := by
  rw [build_eq, grouped_of_nodup h]

/-- **A message goes to the handlers of its command.** -/
theorem process_ofHandlers {messageHandlers : List (Handler Msg Ty Exception σ)} (m : Msg) (s : σ) :
    process (MessageMaps.ofHandlers messageHandlers) (some m) s =
      match messageHandlers.find? (fun h => MessageClass.commandOf Msg h.handles == command m) with
      | none => .thrown (.messageProcessing s!"No handlers for message {command m}") s
      | some handler => handler.process m s := by
  rw [process, MessageMaps.contains, MessageMaps.getMap, MessageMaps.ofHandlers_maps]
  cases messageHandlers.find? (fun h => MessageClass.commandOf Msg h.handles == command m) with
  | none => rfl
  | some handler => simp

end Blockcore.Networking
