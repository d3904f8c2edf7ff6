import CrabbyProxy.Tunnel.Forwarding

/-!
# The tunnels with their sockets

Every accepted connection has the socket it came in on and, once its target answers, the
one that leads there. The tasks of a tunnel, as far as the manager can tell them apart,
are what is left when the sockets are forgotten.
-/

namespace CrabbyProxy.Tunnel
open CrabbyProxy.Stream Execution
set_option autoImplicit false

/-- A `handle_tunnel_connection` ends there when its target cannot be reached. -/
inductive TunnelTask where
  | connecting
  | unreachable (error : IoError)
  | forwarding (f : Forwarding)
  deriving DecidableEq

structure TunnelSession where
  listener : JoinHandle
  targetAddr : SocketAddr
  /-- The socket as it was accepted. -/
  inbound : Socket
  task : TunnelTask
  deriving DecidableEq

namespace TunnelSession

def connect (s : TunnelSession) (outcome : Except IoError Socket) : TunnelSession :=
  match s.task, outcome with
  | .connecting, .ok outbound => { s with task := .forwarding (.new s.inbound outbound) }
  | .connecting, .error e => { s with task := .unreachable e }
  | _, _ => s

def forward (s : TunnelSession) (turn : CopyLoop × CopyTurn) : TunnelSession :=
  match s.task with
  | .forwarding f => { s with task := .forwarding (f.step turn) }
  | _ => s

end TunnelSession

namespace Forwarding

def finished (f : Forwarding) (loop : CopyLoop) : Bool := decide ((f.copier loop).stage = .done)

def stage (f : Forwarding) : ConnectionStage :=
  if f.failure ≠ none then .ended
  else match f.finished .clientToServer, f.finished .serverToClient with
    | true, true => .ended
    | true, false => .relaying (some .clientToServer)
    | false, true => .relaying (some .serverToClient)
    | false, false => .relaying none

end Forwarding

def TunnelTask.stage : TunnelTask → ConnectionStage
  | .connecting => .connecting
  | .unreachable _ => .ended
  | .forwarding f => f.stage

def TunnelSession.connection (s : TunnelSession) : TunnelConnection :=
  ⟨s.listener, s.targetAddr, s.task.stage⟩

structure SocketWorld where
  host : TunnelHost
  listeners : JoinHandle → Listener
  sessions : List TunnelSession

inductive SocketStep where
  | manager (op : TunnelOp)
  | poll (handle : JoinHandle)
  | bind (handle : JoinHandle) (outsider : Bool)
  | accept (handle : JoinHandle) (inbound : Socket)
  | suspend (handle : JoinHandle)
  | drop (handle : JoinHandle)
  | connect (session : Nat) (outcome : Except IoError Socket)
  | forward (session : Nat) (turn : CopyLoop × CopyTurn)

namespace SocketWorld

def new (host : TunnelHost) : SocketWorld := ⟨host, fun _ => ⟨.starting, false⟩, []⟩

/-- The listeners and connections without their sockets. -/
def tasks (w : SocketWorld) : TunnelWorld :=
  ⟨w.host, w.listeners, w.sessions.map TunnelSession.connection, []⟩

def acceptSession (w : SocketWorld) (handle : JoinHandle) (inbound : Socket) : SocketWorld :=
  match w.host.runtime.spawned[handle]? with
  | none => w
  | some task =>
    if w.listeners handle = ⟨.listening, true⟩ then
      { w with sessions := w.sessions ++ [⟨handle, task.targetAddr, inbound, .connecting⟩] }
    else w

/-- Only the operations of the manager have an answer. -/
def step (w : SocketWorld) :
    SocketStep → Option (Except TunnelError (Option UInt16)) × SocketWorld
  | .manager op => (some (w.host.step op).1, { w with host := (w.host.step op).2 })
  | .poll handle => (none, { w with listeners := (w.tasks.pollListener handle).listeners })
  | .bind handle outsider =>
    (none, { w with listeners := (w.tasks.bindListener handle outsider).listeners })
  | .accept handle inbound => (none, w.acceptSession handle inbound)
  | .suspend handle => (none, { w with listeners := (w.tasks.suspendListener handle).listeners })
  | .drop handle => (none, { w with listeners := (w.tasks.dropListener handle).listeners })
  | .connect session outcome =>
    (none, { w with sessions := w.sessions.modify session (·.connect outcome) })
  | .forward session turn =>
    (none, { w with sessions := w.sessions.modify session (·.forward turn) })

end SocketWorld

namespace Forwarding

variable {f f' : Forwarding} {loop : CopyLoop} {turn : CopyTurn}

theorem stage_congr (hFailure : f.failure = none) (hFailure' : f'.failure = none)
    (hFinished : ∀ loop, f'.finished loop = f.finished loop) : f'.stage = f.stage := by
  rw [stage, stage, if_neg (not_not.mpr hFailure), if_neg (not_not.mpr hFailure'),
    hFinished, hFinished]

/-- While a loop is not done its connection is relaying in that direction. -/
theorem copies_of_not_finished (hFailure : f.failure = none) (hFinished : f.finished loop = false) :
    f.stage.copies loop = true := by
  rw [stage, if_neg (not_not.mpr hFailure)]
  cases loop with
  | clientToServer =>
    rw [hFinished]
    cases f.finished .serverToClient <;> rfl
  | serverToClient =>
    rw [hFinished]
    cases f.finished .clientToServer <;> rfl

theorem fail_of_not_finished (hFailure : f.failure = none) (hFinished : f.finished loop = false) :
    f.stage.fail = .ended := by
  have hCopies := copies_of_not_finished hFailure hFinished
  cases hStage : f.stage with
  | relaying other => rfl
  | connecting | ended =>
    rw [hStage] at hCopies
    cases hCopies

theorem finish_of_not_finished (hFailure : f.failure = none) (hFinished : f.finished loop = false)
    (hFailure' : f'.failure = none) (hDone : f'.finished loop = true)
    (hOther : ∀ other, other ≠ loop → f'.finished other = f.finished other) :
    f'.stage = f.stage.finish loop := by
  rw [stage, stage, if_neg (not_not.mpr hFailure), if_neg (not_not.mpr hFailure')]
  cases loop with
  | clientToServer =>
    rw [hFinished, hDone, hOther .serverToClient nofun]
    cases f.finished .serverToClient <;> rfl
  | serverToClient =>
    rw [hFinished, hDone, hOther .clientToServer nofun]
    cases f.finished .clientToServer <;> rfl

/-- How a turn looks from outside. -/
inductive Effect (f f' : Forwarding) (loop : CopyLoop) : Prop
  | quiet (hStage : f'.stage = f.stage)
      (hCopied : ∀ l, (f'.copier l).copied = (f.copier l).copied)
  | moved (n : Nat) (hPos : 0 < n) (hStage : f'.stage = f.stage)
      (hCopies : f.stage.copies loop = true)
      (hCopied : ∀ l, (f'.copier l).copied = (f.copier l).copied + if l = loop then n else 0)
  | finished (hStage : f'.stage = f.stage.finish loop)
      (hCopied : ∀ l, (f'.copier l).copied = (f.copier l).copied)
  | failed (hStage : f'.stage = f.stage.fail)
      (hCopied : ∀ l, (f'.copier l).copied = (f.copier l).copied)

theorem effect_of_copier (hRunning : f.failure = none) (hReady : (f.copier loop).stage ≠ .done)
    (hEffect : Copier.Effect (f.copier loop) (f'.copier loop))
    (hOther : ∀ other, other ≠ loop → f'.copier other = f.copier other) : Effect f f' loop := by
  have hNotDone : f.finished loop = false := decide_eq_false hReady
  have hOtherFinished : ∀ other, other ≠ loop → f'.finished other = f.finished other := by
    intro other hNe
    rw [finished, hOther other hNe]
    rfl
  have hRunning' : (f'.copier loop).failure = none → f'.failure = none := by
    intro hOwn
    refine failure_eq_none_iff.mpr fun other => ?_
    by_cases hSame : other = loop
    · rw [hSame]
      exact hOwn
    · rw [hOther other hSame]
      exact failure_eq_none_iff.mp hRunning other
  have hFinished : (f'.copier loop).stage ≠ .done → ∀ l, f'.finished l = f.finished l := by
    intro hStage l
    by_cases hSame : l = loop
    · rw [hSame, hNotDone]
      exact decide_eq_false hStage
    · exact hOtherFinished l hSame
  have hKept : (f'.copier loop).copied = (f.copier loop).copied →
      ∀ l, (f'.copier l).copied = (f.copier l).copied := by
    intro hOwn l
    by_cases hSame : l = loop
    · rw [hSame]
      exact hOwn
    · rw [hOther l hSame]
  cases hEffect with
  | filled hFailure hDone hCopied =>
    exact .quiet (stage_congr hRunning (hRunning' hFailure) (hFinished hDone)) (hKept hCopied)
  | drained n hPos hFailure hDone hCopied =>
    refine .moved n hPos (stage_congr hRunning (hRunning' hFailure) (hFinished hDone))
      (copies_of_not_finished hRunning hNotDone) fun l => ?_
    by_cases hSame : l = loop
    · rw [if_pos hSame, hSame]
      exact hCopied
    · rw [if_neg hSame, hOther l hSame, Nat.add_zero]
  | closed hDone hCopied =>
    have hOwn : (f'.copier loop).failure = none := by rw [Copier.failure, hDone]
    exact .finished (finish_of_not_finished hRunning hNotDone (hRunning' hOwn)
      (decide_eq_true hDone) hOtherFinished) (hKept hCopied)
  | failed hFailure hCopied =>
    refine .failed ?_ (hKept hCopied)
    rw [fail_of_not_finished hRunning hNotDone, stage, if_pos]
    exact fun hNone => hFailure (failure_eq_none_iff.mp hNone loop)

theorem step_effect (f : Forwarding) (loop : CopyLoop) (turn : CopyTurn) :
    Effect f (f.step (loop, turn)) loop := by
  obtain hSame | ⟨hRunning, hMoved, hOther⟩ := f.step_cases loop turn
  · rw [hSame]
    exact .quiet rfl fun _ => rfl
  have hCopiers := fun other hNe => (hOther other hNe).1
  by_cases hReady : (f.copier loop).Ready turn
  · have hEffect := Copier.step_effect (f.source loop) (f.sink loop) hReady
    rw [← hMoved] at hEffect
    exact effect_of_copier hRunning hReady.not_done hEffect hCopiers
  · rw [Copier.step_idle hReady] at hMoved
    have hAll : ∀ l, (f.step (loop, turn)).copier l = f.copier l := by
      intro l
      by_cases hSame : l = loop
      · rw [hSame]
        exact congrArg Prod.fst hMoved
      · exact hCopiers l hSame
    refine .quiet (stage_congr hRunning ?_ fun l => ?_) fun l => by rw [hAll]
    · rw [failure_eq_none_iff] at hRunning ⊢
      exact fun l => by rw [hAll]; exact hRunning l
    · rw [finished, hAll]
      rfl

end Forwarding

/-- The traffic of the abstract world, each entry with the session that it belongs to. -/
abbrev Record := List (Nat × Forwarded)

/-- The bytes that this loop of this session has written. -/
def Record.written (record : Record) (session : Nat) (loop : CopyLoop) : List UInt8 :=
  (record.filter fun entry => entry.1 = session ∧ entry.2.loop = loop).flatMap (·.2.bytes)

theorem Record.written_append (record more : Record) (session : Nat) (loop : CopyLoop) :
    (record ++ more).written session loop =
      record.written session loop ++ Record.written more session loop := by
  rw [written, List.filter_append, List.flatMap_append]
  rfl

/-- The sockets of a session have been sent exactly these bytes since the target answered. -/
def TunnelSession.Wrote (s : TunnelSession) (written : CopyLoop → List UInt8) : Prop :=
  match s.task with
  | .forwarding f => ∃ outbound, ∀ loop,
      Copier.Copied ((Forwarding.new s.inbound outbound).source loop)
        ((Forwarding.new s.inbound outbound).sink loop) (written loop) (f.copier loop)
        (f.source loop) (f.sink loop)
  | _ => ∀ loop, written loop = []

/-- The abstract world shows the listeners, the connections and the traffic of the
concrete one. -/
structure SocketWorld.Shows (w : SocketWorld) (a : TunnelWorld) (record : Record) : Prop where
  host : a.host = w.host
  listeners : a.listeners = w.listeners
  connections : a.connections = w.sessions.map TunnelSession.connection
  traffic : a.traffic = record.map Prod.snd
  owners : ∀ entry ∈ record, ∃ s, w.sessions[entry.1]? = some s ∧
    entry.2.listener = s.listener ∧ entry.2.targetAddr = s.targetAddr
  sessions : ∀ i (s : TunnelSession), w.sessions[i]? = some s → s.Wrote (record.written i)

namespace SocketWorld

variable {w : SocketWorld} {a a' : TunnelWorld} {record : Record} {i : Nat} {s : TunnelSession}

theorem Shows.written_of_length_le (h : w.Shows a record) (hLe : w.sessions.length ≤ i)
    (loop : CopyLoop) : record.written i loop = [] := by
  rw [Record.written, List.filter_eq_nil_iff.mpr, List.flatMap_nil]
  intro entry hEntry hOwned
  obtain ⟨s, hGet, _⟩ := h.owners entry hEntry
  obtain ⟨rfl, _⟩ := of_decide_eq_true hOwned
  rw [List.getElem?_eq_none hLe] at hGet
  cases hGet

theorem map_connection_modify {sessions : List TunnelSession} (hGet : sessions[i]? = some s)
    {g : TunnelSession → TunnelSession} {f : ConnectionStage → ConnectionStage}
    (hStage : (g s).connection = { s.connection with stage := f s.connection.stage }) :
    (sessions.modify i g).map TunnelSession.connection =
      (sessions.map TunnelSession.connection).modify i fun c => { c with stage := f c.stage } := by
  apply List.ext_getElem?
  intro j
  rw [List.getElem?_map, List.getElem?_modify, List.getElem?_modify, List.getElem?_map]
  by_cases hSame : i = j
  · subst hSame
    rw [hGet]
    simp [hStage]
  · simp [hSame]

theorem map_connection_same {sessions : List TunnelSession} (hGet : sessions[i]? = some s)
    {g : TunnelSession → TunnelSession} (hSame : (g s).connection = s.connection) :
    (sessions.modify i g).map TunnelSession.connection =
      sessions.map TunnelSession.connection := by
  have hModify := @map_connection_modify i s sessions hGet g id hSame
  rw [hModify]
  exact List.modify_id i _

/-- One session goes on, and what it has written meanwhile goes on record. -/
theorem Shows.update (h : w.Shows a record) (hGet : w.sessions[i]? = some s)
    {g : TunnelSession → TunnelSession} (hListener : (g s).listener = s.listener)
    (hTarget : (g s).targetAddr = s.targetAddr) {more : Record}
    (hMore : ∀ entry ∈ more, entry.1 = i ∧ entry.2.listener = s.listener ∧
      entry.2.targetAddr = s.targetAddr)
    (hHost : a'.host = a.host) (hListeners : a'.listeners = a.listeners)
    (hConnections : a'.connections = (w.sessions.modify i g).map TunnelSession.connection)
    (hTraffic : a'.traffic = a.traffic ++ more.map Prod.snd)
    (hWrote : (g s).Wrote ((record ++ more).written i)) :
    Shows { w with sessions := w.sessions.modify i g } a' (record ++ more) where
  host := hHost.trans h.host
  listeners := hListeners.trans h.listeners
  connections := hConnections
  traffic := by rw [hTraffic, h.traffic, List.map_append]
  owners entry hEntry := by
    have hSession : ∃ s, w.sessions[entry.1]? = some s ∧ entry.2.listener = s.listener ∧
        entry.2.targetAddr = s.targetAddr := by
      obtain hOld | hNew := List.mem_append.mp hEntry
      · exact h.owners entry hOld
      · obtain ⟨hIndex, hBoth⟩ := hMore entry hNew
        exact ⟨s, by rw [hIndex]; exact hGet, hBoth⟩
    obtain ⟨owner, hOwner, hBoth⟩ := hSession
    by_cases hSame : i = entry.1
    · rw [← hSame, hGet] at hOwner
      obtain rfl := Option.some.inj hOwner
      refine ⟨g s, ?_, hBoth.1.trans hListener.symm, hBoth.2.trans hTarget.symm⟩
      rw [← hSame]
      exact (List.getElem?_modify_eq g i _).trans (by rw [hGet]; rfl)
    · exact ⟨owner, (List.getElem?_modify_ne g _ hSame).trans hOwner, hBoth⟩
  sessions j s' hGet' := by
    by_cases hSame : i = j
    · subst hSame
      rw [List.getElem?_modify_eq, hGet] at hGet'
      obtain rfl : g s = s' := Option.some.inj hGet'
      exact hWrote
    · rw [List.getElem?_modify_ne g _ hSame] at hGet'
      have hNone : ∀ loop, Record.written more j loop = [] := by
        intro loop
        rw [Record.written, List.filter_eq_nil_iff.mpr, List.flatMap_nil]
        intro entry hEntry hOwned
        exact hSame ((hMore entry hEntry).1.symm.trans (of_decide_eq_true hOwned).1)
      have hWritten : (record ++ more).written j = record.written j := by
        funext loop
        rw [Record.written_append, hNone, List.append_nil]
      rw [hWritten]
      exact h.sessions j s' hGet'

theorem modify_eq_of_eq {sessions : List TunnelSession} (hGet : sessions[i]? = some s)
    {g : TunnelSession → TunnelSession} (hSame : g s = s) : sessions.modify i g = sessions := by
  apply List.ext_getElem?
  intro j
  by_cases hIndex : i = j
  · subst hIndex
    rw [List.getElem?_modify_eq, hGet]
    exact congrArg some hSame
  · exact List.getElem?_modify_ne g _ hIndex

/-- A session goes to its next stage and writes nothing. -/
theorem Shows.advance (h : w.Shows a record) (hGet : w.sessions[i]? = some s)
    {g : TunnelSession → TunnelSession} {f : ConnectionStage → ConnectionStage}
    (hStage : (g s).connection = { s.connection with stage := f s.connection.stage })
    (hWrote : (g s).Wrote (record.written i)) :
    Shows { w with sessions := w.sessions.modify i g } (a.setStage i f) record := by
  have hConnections : (a.setStage i f).connections =
      (w.sessions.modify i g).map TunnelSession.connection := by
    rw [TunnelWorld.setStage, h.connections, map_connection_modify hGet hStage]
  have hUpdate := @Shows.update w a (a.setStage i f) record i s h hGet g
    (congrArg TunnelConnection.listener hStage) (congrArg TunnelConnection.targetAddr hStage) []
    nofun rfl rfl hConnections (List.append_nil _).symm (by rw [List.append_nil]; exact hWrote)
  rw [List.append_nil] at hUpdate
  exact hUpdate

/-- A session stays where it is and writes some bytes, or none. -/
theorem Shows.stay (h : w.Shows a record) (hGet : w.sessions[i]? = some s)
    (g : TunnelSession → TunnelSession) (hSame : (g s).connection = s.connection) {more : Record}
    (hMore : ∀ entry ∈ more, entry.1 = i ∧ entry.2.listener = s.listener ∧
      entry.2.targetAddr = s.targetAddr)
    (hWrote : (g s).Wrote ((record ++ more).written i)) :
    Shows { w with sessions := w.sessions.modify i g }
      { a with traffic := a.traffic ++ more.map Prod.snd } (record ++ more) :=
  h.update hGet (congrArg TunnelConnection.listener hSame)
    (congrArg TunnelConnection.targetAddr hSame) hMore rfl rfl
    (h.connections.trans (map_connection_same hGet hSame).symm) rfl hWrote

/-- Some tasks lead to a world that shows this one. -/
def Matches (w' : SocketWorld) (a : TunnelWorld) : Prop :=
  ∃ tasks : List TaskStep, ∃ record, w'.Shows (tasks.foldl TunnelWorld.taskStep a) record

theorem Shows.connect (h : w.Shows a record) (i : Nat) (outcome : Except IoError Socket) :
    Matches { w with sessions := w.sessions.modify i (·.connect outcome) } a := by
  cases hGet : w.sessions[i]? with
  | none =>
    rw [List.modify_eq_self (List.getElem?_eq_none_iff.mp hGet)]
    exact ⟨[], record, h⟩
  | some s =>
    have hWrote := h.sessions i s hGet
    obtain ⟨listener, targetAddr, inbound, task⟩ := s
    cases task with
    | connecting =>
      cases outcome with
      | ok outbound =>
        refine ⟨[.connect i true], record, h.advance hGet rfl ⟨outbound, fun loop => ?_⟩⟩
        rw [hWrote loop]
        cases loop <;> exact Copier.copied_new _ _
      | error e => exact ⟨[.connect i false], record, h.advance hGet rfl hWrote⟩
    | unreachable e | forwarding f =>
      rw [modify_eq_of_eq hGet (by cases outcome <;> rfl)]
      exact ⟨[], record, h⟩

theorem wrote_forward {written : CopyLoop → List UInt8} {f : Forwarding}
    (hTask : s.task = .forwarding f) (hWrote : s.Wrote written) (loop : CopyLoop)
    (turn : CopyTurn) : ∃ more : List UInt8,
      (s.forward (loop, turn)).Wrote (fun l => written l ++ if l = loop then more else []) ∧
      ((f.step (loop, turn)).copier loop).copied = (f.copier loop).copied + more.length := by
  have hForward : s.forward (loop, turn) = { s with task := .forwarding (f.step (loop, turn)) } := by
    rw [TunnelSession.forward, hTask]
  rw [TunnelSession.Wrote, hTask] at hWrote
  obtain ⟨outbound, hCopied⟩ := hWrote
  obtain hSame | ⟨_, hMoved, hOther⟩ := f.step_cases loop turn
  · refine ⟨[], ?_, by rw [hSame]; rfl⟩
    rw [hForward, hSame]
    refine ⟨outbound, fun l => ?_⟩
    dsimp only
    rw [ite_self, List.append_nil]
    exact hCopied l
  · obtain ⟨more, hMore⟩ := (hCopied loop).step turn
    rw [← hMoved] at hMore
    refine ⟨more, ?_, ?_⟩
    · rw [hForward]
      refine ⟨outbound, fun l => ?_⟩
      dsimp only
      by_cases hLoop : l = loop
      · rw [if_pos hLoop, hLoop]
        exact hMore
      · obtain ⟨hCopier, hSource, hSink⟩ := hOther l hLoop
        rw [if_neg hLoop, List.append_nil, hCopier, hSource, hSink]
        exact hCopied l
    · rw [hMore.counted, (hCopied loop).counted, List.length_append]

theorem written_singleton (i : Nat) (forwarded : Forwarded) (loop : CopyLoop) :
    Record.written [(i, forwarded)] i loop =
      if loop = forwarded.loop then forwarded.bytes else [] := by
  by_cases hLoop : loop = forwarded.loop
  · rw [if_pos hLoop, Record.written, List.filter_eq_self.mpr]
    · exact List.append_nil _
    · intro entry hEntry
      rw [List.mem_singleton.mp hEntry]
      exact decide_eq_true ⟨rfl, hLoop.symm⟩
  · rw [if_neg hLoop, Record.written, List.filter_eq_nil_iff.mpr]
    · rfl
    · intro entry hEntry hOwned
      rw [List.mem_singleton.mp hEntry] at hOwned
      exact hLoop (of_decide_eq_true hOwned).2.symm

theorem Shows.forward (h : w.Shows a record) (i : Nat) (turn : CopyLoop × CopyTurn) :
    Matches { w with sessions := w.sessions.modify i (·.forward turn) } a := by
  obtain ⟨loop, turn⟩ := turn
  cases hGet : w.sessions[i]? with
  | none =>
    rw [List.modify_eq_self (List.getElem?_eq_none_iff.mp hGet)]
    exact ⟨[], record, h⟩
  | some s =>
    cases hTask : s.task with
    | connecting | unreachable e =>
      rw [modify_eq_of_eq hGet (by rw [TunnelSession.forward, hTask])]
      exact ⟨[], record, h⟩
    | forwarding f =>
      obtain ⟨more, hWrote, hLength⟩ := wrote_forward hTask (h.sessions i s hGet) loop turn
      have hForward : s.forward (loop, turn) =
          { s with task := .forwarding (f.step (loop, turn)) } := by
        rw [TunnelSession.forward, hTask]
      have hBefore : s.connection = ⟨s.listener, s.targetAddr, f.stage⟩ := by
        rw [TunnelSession.connection, hTask]
        rfl
      have hAfter : (s.forward (loop, turn)).connection =
          ⟨s.listener, s.targetAddr, (f.step (loop, turn)).stage⟩ := by
        rw [hForward]
        rfl
      have hNothing : ((f.step (loop, turn)).copier loop).copied = (f.copier loop).copied →
          (s.forward (loop, turn)).Wrote (record.written i) := by
        intro hCopied
        obtain rfl : more = [] := List.eq_nil_of_length_eq_zero (by omega)
        simp only [ite_self, List.append_nil] at hWrote
        exact hWrote
      cases f.step_effect loop turn with
      | quiet hSame hCopied =>
        have hStays := @Shows.stay w a record i s h hGet (·.forward (loop, turn))
          (by rw [hAfter, hBefore, hSame]) [] nofun
          (by rw [List.append_nil]; exact hNothing (hCopied loop))
        rw [List.map_nil, List.append_nil] at hStays
        exact ⟨[], _, hStays⟩
      | moved n hPos hSame hCopies hCopied =>
        have hOwn := hCopied loop
        rw [if_pos rfl] at hOwn
        have hBytes : more ≠ [] := by
          rintro rfl
          rw [List.length_nil] at hLength
          omega
        have hFound : a.connections[i]? = some ⟨s.listener, s.targetAddr, f.stage⟩ := by
          rw [h.connections, List.getElem?_map, hGet, ← hBefore]
          rfl
        have hCopy : a.copyBytes i loop more =
            { a with traffic := a.traffic ++ [⟨s.listener, s.targetAddr, loop, more⟩] } := by
          rw [TunnelWorld.copyBytes, hFound]
          exact if_pos ⟨hCopies, hBytes⟩
        have hWritten : (record ++ [(i, Forwarded.mk s.listener s.targetAddr loop more)]).written i =
            fun l => record.written i l ++ if l = loop then more else [] := by
          funext l
          rw [Record.written_append, written_singleton]
        have hStays := @Shows.stay w a record i s h hGet (·.forward (loop, turn))
          (by rw [hAfter, hBefore, hSame]) [(i, Forwarded.mk s.listener s.targetAddr loop more)]
          (fun entry hEntry => by rw [List.mem_singleton.mp hEntry]; exact ⟨rfl, rfl, rfl⟩)
          (by rw [hWritten]; exact hWrote)
        refine ⟨[.copy i loop more],
          record ++ [(i, Forwarded.mk s.listener s.targetAddr loop more)], ?_⟩
        rw [List.foldl_cons, List.foldl_nil, TunnelWorld.taskStep, hCopy]
        exact hStays
      | finished hFinish hCopied =>
        refine ⟨[.finish i loop], record, h.advance hGet ?_ (hNothing (hCopied loop))⟩
        rw [hAfter, hBefore, hFinish]
      | failed hFail hCopied =>
        refine ⟨[.fail i], record, h.advance hGet ?_ (hNothing (hCopied loop))⟩
        rw [hAfter, hBefore, hFail]

theorem Shows.eq (h : w.Shows a record) : a = { w.tasks with traffic := a.traffic } := by
  obtain ⟨host, listeners, connections, traffic⟩ := a
  obtain rfl : host = w.host := h.host
  obtain rfl : listeners = w.listeners := h.listeners
  obtain rfl : connections = w.sessions.map TunnelSession.connection := h.connections
  rfl

theorem Shows.accept (h : w.Shows a record) (handle : JoinHandle) (inbound : Socket) :
    (w.acceptSession handle inbound).Shows (a.acceptConnection handle) record := by
  rw [acceptSession, TunnelWorld.acceptConnection, h.host, h.listeners]
  cases w.host.runtime.spawned[handle]? with
  | none => exact h
  | some task =>
    dsimp only
    by_cases hListening : w.listeners handle = ⟨.listening, true⟩
    · rw [if_pos hListening, if_pos hListening]
      refine { h with
        host := rfl, listeners := rfl, connections := ?_, owners := ?_, sessions := ?_ }
      · rw [h.connections, List.map_append]
        rfl
      · intro entry hEntry
        obtain ⟨s, hGet, hBoth⟩ := h.owners entry hEntry
        refine ⟨s, ?_, hBoth⟩
        rw [List.getElem?_append_left (List.getElem?_eq_some_iff.mp hGet).1]
        exact hGet
      · intro i s hGet
        by_cases hOld : i < w.sessions.length
        · rw [List.getElem?_append_left hOld] at hGet
          exact h.sessions i s hGet
        · rw [List.getElem?_append_right (Nat.le_of_not_lt hOld)] at hGet
          obtain rfl := (List.mem_singleton.mp (List.mem_of_getElem? hGet)).symm
          exact h.written_of_length_le (Nat.le_of_not_lt hOld)
    · rw [if_neg hListening, if_neg hListening]
      exact h

/-- What a listener does by itself, the connections and the traffic have no part in. -/
def reframe (v : TunnelWorld) (connections : List TunnelConnection) (traffic : List Forwarded) :
    TunnelWorld :=
  { v with connections := connections, traffic := traffic }

theorem pollListener_reframe (v : TunnelWorld) (connections : List TunnelConnection)
    (traffic : List Forwarded) (handle : JoinHandle) :
    (reframe v connections traffic).pollListener handle =
      reframe (v.pollListener handle) connections traffic := by
  rw [TunnelWorld.pollListener, TunnelWorld.pollListener, apply_ite (reframe · connections traffic)]
  rfl

theorem suspendListener_reframe (v : TunnelWorld) (connections : List TunnelConnection)
    (traffic : List Forwarded) (handle : JoinHandle) :
    (reframe v connections traffic).suspendListener handle =
      reframe (v.suspendListener handle) connections traffic := by
  rw [TunnelWorld.suspendListener, TunnelWorld.suspendListener, apply_ite (reframe · connections traffic)]
  rfl

theorem dropListener_reframe (v : TunnelWorld) (connections : List TunnelConnection)
    (traffic : List Forwarded) (handle : JoinHandle) :
    (reframe v connections traffic).dropListener handle =
      reframe (v.dropListener handle) connections traffic := by
  rw [TunnelWorld.dropListener, TunnelWorld.dropListener, apply_ite (reframe · connections traffic)]
  rfl

theorem bindListener_reframe (v : TunnelWorld) (connections : List TunnelConnection)
    (traffic : List Forwarded) (handle : JoinHandle) (outsider : Bool) :
    (reframe v connections traffic).bindListener handle outsider =
      reframe (v.bindListener handle outsider) connections traffic := by
  rw [TunnelWorld.bindListener, TunnelWorld.bindListener, reframe]
  cases v.host.runtime.spawned[handle]? with
  | none => rfl
  | some task =>
    dsimp only
    rw [apply_ite (reframe · connections traffic), apply_ite (reframe · connections traffic)]
    rfl

theorem Shows.listen (h : w.Shows a record) (step : TaskStep)
    (hReframe : ∀ connections traffic, (reframe w.tasks connections traffic).taskStep step =
      reframe (w.tasks.taskStep step) connections traffic) :
    Matches { w with listeners := (w.tasks.taskStep step).listeners } a := by
  have hHost := (w.tasks.taskStep_cases step).1
  have hStep : a.taskStep step =
      { a with listeners := (w.tasks.taskStep step).listeners } := by
    rw [h.eq]
    refine (hReframe _ _).trans ?_
    rw [reframe, hHost]
  refine ⟨[step], record, ?_⟩
  rw [List.foldl_cons, List.foldl_nil, hStep]
  exact { h with listeners := rfl }

/-- The tasks have no answers. -/
theorem run_tasks (a : TunnelWorld) (tasks : List TaskStep) :
    run TunnelWorld.step a (tasks.map .task) = tasks.foldl TunnelWorld.taskStep a ∧
      (history TunnelWorld.step a (tasks.map .task)).filterMap (fun event => event.2) = [] := by
  induction tasks generalizing a with
  | nil => exact ⟨rfl, rfl⟩
  | cons task tasks ih => exact ih (a.taskStep task)

/-- One step of the sockets is some steps of the tasks. -/
theorem Shows.step (h : w.Shows a record) (input : SocketStep) :
    ∃ inputs, (∃ record', (w.step input).2.Shows (run TunnelWorld.step a inputs) record') ∧
      (history TunnelWorld.step a inputs).filterMap (fun event => event.2) =
        (w.step input).1.toList := by
  have hTasks : ∀ {w'}, Matches w' a →
      ∃ inputs, (∃ record', w'.Shows (run TunnelWorld.step a inputs) record') ∧
        (history TunnelWorld.step a inputs).filterMap (fun event => event.2) = [] := by
    rintro w' ⟨tasks, record', hShows⟩
    obtain ⟨hRun, hSilent⟩ := run_tasks a tasks
    rw [← hRun] at hShows
    exact ⟨tasks.map .task, ⟨record', hShows⟩, hSilent⟩
  cases input with
  | manager op =>
    refine ⟨[.manager op], ⟨record, ?_⟩, ?_⟩
    · exact { h with host := by rw [run, run, TunnelWorld.step, h.host]; rfl }
    · rw [history, TunnelWorld.step, h.host]
      rfl
  | poll handle => exact hTasks (h.listen (.poll handle) fun _ _ => pollListener_reframe _ _ _ handle)
  | bind handle outsider =>
    exact hTasks (h.listen (.bind handle outsider) fun _ _ => bindListener_reframe _ _ _ handle outsider)
  | accept handle inbound => exact hTasks ⟨[.accept handle], record, h.accept handle inbound⟩
  | suspend handle =>
    exact hTasks (h.listen (.suspend handle) fun _ _ => suspendListener_reframe _ _ _ handle)
  | drop handle =>
    exact hTasks (h.listen (.drop handle) fun _ _ => dropListener_reframe _ _ _ handle)
  | connect session outcome => exact hTasks (h.connect session outcome)
  | forward session turn => exact hTasks (h.forward session turn)

theorem shows_new (host : TunnelHost) : (new host).Shows (.new host) [] where
  host := rfl
  listeners := rfl
  connections := rfl
  traffic := rfl
  owners entry hEntry := absurd hEntry List.not_mem_nil
  sessions i s hGet := by
    rw [new, List.getElem?_nil] at hGet
    cases hGet

end SocketWorld

open SocketWorld

/-- Whatever the sockets do in a run of the host, the manager gives the answers of a run of
the tasks, in which every loop moves exactly the bytes that its socket is sent. -/
theorem sockets_run_tasks (host : TunnelHost) (inputs : List SocketStep) :
    ∃ tasks record,
      (run SocketWorld.step (.new host) inputs).Shows
        (run TunnelWorld.step (.new host) tasks) record ∧
      (history TunnelWorld.step (.new host) tasks).filterMap (fun event => event.2) =
        (history SocketWorld.step (.new host) inputs).filterMap fun event => event.2 := by
  have hSimulates := @simulates _ _ _ _ _ _ _ SocketWorld.step TunnelWorld.step
    (fun w a => ∃ record, w.Shows a record) id id
    (fun w a input ⟨record, hShows⟩ => hShows.step input) _ _ ⟨[], shows_new host⟩ inputs
  obtain ⟨tasks, ⟨record, hShows⟩, hAnswers⟩ := hSimulates
  exact ⟨tasks, record, hShows, hAnswers⟩

end CrabbyProxy.Tunnel
