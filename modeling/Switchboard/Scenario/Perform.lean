import Switchboard.Event
import Switchboard.Scenario.Machine

/-!
# Performing steps

What each step does to the machine, for the steps that are done at once. Handling a frame may tell
observers of a failure, and an observer performs steps itself; `report` bounds how deep this goes,
and `performWith` performs a step with a given way to report.
-/

namespace Switchboard.Scenario

/-- Tells the observers of a failure. -/
abbrev Report := Machine → Refusal → Option Listener → Machine

namespace Machine

/-- Takes what came of a frame or a packet, and reports a refusal. -/
def absorb (tell : Report) (m : Machine) (h : Handled) : Machine :=
  let m := match h.called with
    | some (name, p) => m.remark .packet (.handled name p)
    | none => m
  let m := (m.withSession h.session).logAll h.logs
  match h.refusal with
  | some r => tell m r none
  | none => m

/-- Changes the cache of the session. -/
def withCache (m : Machine) (c : Cache) : Machine := m.withSession { m.session with cache := c }

/-- Changes the registrations of the session. -/
def withRegistry (m : Machine) (r : Registry) : Machine :=
  m.withSession { m.session with registry := r }

/-- The answer to a question to the cache. -/
def lookup (c : Cache) : Query → Answer
  | .server id => .server (c.server? id)
  | .channel id => .channel (c.channel? id)
  | .user id => .user (c.user? id)
  | .message id => .message (c.message? id)
  | .channelsOf id => .channels (c.channelsOf id)
  | .messagesOf id => .messages (c.messagesOf id)

/-- Puts an entity into the cache. -/
def put (m : Machine) : Item → Machine × Answer
  | .server s => (m.withCache (m.session.cache.keepServer s), .nothing)
  | .channel ch => (m.withCache (m.session.cache.keepChannel ch), .nothing)
  | .user u => (m.withCache (m.session.cache.keepUser u), .nothing)
  | .message msg enteredAt =>
    let msg := { msg with createdAt := enteredAt.getD m.clock }
    let (gone, cache) := m.session.cache.keepMessage msg
    (m.withCache cache, .ids (gone.map Message.id))

/-- Drops an entity from the cache. -/
def remove (m : Machine) : Removal → Machine × Answer
  | .server id =>
    let (s, cache) := m.session.cache.dropServer id
    (m.withCache cache, .server s)
  | .channel id =>
    let (ch, cache) := m.session.cache.dropChannel id
    (m.withCache cache, .channel ch)
  | .message id =>
    let (msg, cache) := m.session.cache.dropMessage id
    (m.withCache cache, .message msg)

/-- Drops old messages from the cache, and nothing else. -/
def evict (m : Machine) (maxAge : Except Failure Duration) (now : Option Instant) :
    Machine × Answer :=
  match maxAge.bind fun a => m.session.cache.dropOlder a (now.getD m.clock) with
  | .error f => (m, .failed f)
  | .ok (gone, cache) => (m.withCache cache, .ids (gone.map Message.id))

/-- Sweeps once. -/
def sweep (m : Machine) (maxAge : Except Failure Duration) (now : Option Instant) :
    Machine × Answer :=
  match maxAge.bind fun a => m.session.sweep a (now.getD m.clock) with
  | .error f => (m, .failed f)
  | .ok (n, s) => ((m.withSession s).logAll (Session.sweepRecords n), .count n)

/-- Attaches a listener. -/
def listen (m : Machine) (kind : EventKind) (listener : Listener) (scope : Scope) :
    Machine × Answer :=
  let (known, registry) := m.session.registry.attach scope kind listener
  let m := m.withRegistry registry
  ({ m with issued := Table.put known.id known m.issued }, .registration known)

/-- Takes back a registration that was given as an answer. -/
def unlisten (m : Machine) (id : Int) : Machine × Answer :=
  match m.issued.find? fun e => (e.1 : Int) == id with
  | none => (m, .unknownHandle)
  | some (_, known) => (m.withRegistry (m.session.registry.detach known), .nothing)

/-- Gives a packet type a handler of the scenario. -/
def handle (m : Machine) (type name : String) (answer : Packet → Option Failure) :
    Machine × Answer :=
  let (known, handlers) := m.session.handlers.assign type (.custom name answer)
  let m := m.withSession { m.session with handlers }
  (m.logAll (if known then [.handlerReplaced type] else []), .nothing)

/-- Submits a note to a lane. -/
def dispatch (m : Machine) (root : Root) (listeners : List Listener) (name : String) :
    Machine × Answer :=
  match m.session.lanes.submit root ⟨.note name root, listeners⟩ with
  | .error f => (m, .failed f)
  | .ok lanes => (m.withSession { m.session with lanes }, .flag root.isNone)

/-- Texts in increasing order. -/
def sorted (ss : List String) : List String := ss.mergeSort fun a b => !decide (b < a)

/-- Performs a step that is done at once. The steps that wait do nothing here. -/
def performWith (tell : Report) (m : Machine) : Step → Machine × Answer
  | .frame v =>
    let h := m.session.acceptFrame m.clock v
    (m.absorb tell h, .flag h.accepted)
  | .packet p =>
    let h := m.session.acceptPacket m.clock p
    (m.absorb tell h, .flag h.accepted)
  | .consume .. | .idle | .sleep _ => (m, .nothing)
  | .listen kind listener scope => m.listen kind listener scope
  | .unlisten id => m.unlisten id
  | .observe name fails steps =>
    ({ m with observers := m.observers ++ [.scripted name fails steps] }, .nothing)
  | .observeLogging => ({ m with observers := m.observers ++ [.logging] }, .nothing)
  | .handle type name answer => m.handle type name answer
  | .packetTypes asked =>
    let h := m.session.handlers
    (m, .types (sorted h.types) (asked.map fun t => (h.find? t).isSome))
  | .dispatch root listeners name => m.dispatch root listeners name
  | .status => (m, .status m.session.lanes.running m.session.lanes.active)
  | .sweep maxAge now => m.sweep maxAge now
  | .sweeper w => (m, .ofExcept (fun w => .sweeper w.enabled w.maxAge) w)
  | .lookup q => (m, lookup m.session.cache q)
  | .put i => m.put i
  | .remove r => m.remove r
  | .evict maxAge now => m.evict maxAge now
  | .capacity n =>
    let cache := { m.session.cache with capacity := n }
    (m.withCache cache, .count cache.messages.length)
  | .clear => (m.withCache m.session.cache.clear, .nothing)
  | .listenersAt scope kind => (m, .names (m.session.registry.listenersAt scope kind))
  | .registrationsAt scope => (m, .registrations (m.session.registry.registrationsAt scope))
  | .dropScope scope =>
    let (n, registry) := m.session.registry.dropScope scope
    (m.withRegistry registry, .count n)
  | .settings => (m, .settings m.session.settings)
  | .close => (m.withSession m.session.close, .nothing)

/-! ## Observers -/

/-- The origin of what concerns a subject. -/
def originOf : Subject → Origin
  | .frame _ | .packet _ => .packet
  | .signal s => .lane s.server?

/-- The word for the kind of a subject. -/
def subjectKind : Subject → String
  | .frame v => v.kindName
  | .packet _ => "Packet"
  | .signal s => s.title

/-- Tells one observer of a failure. What the observer's own steps refuse is told by `tell`. -/
def tellObserver (tell : Report) (refusal : Refusal) (listener : Option Listener) (m : Machine) :
    Observer → Machine
  | .scripted name fails steps =>
    let m := m.remark (originOf refusal.subject) (.observed name refusal listener)
    let m := steps.foldl (fun m s => (m.performWith tell s).1) m
    if fails then m.logAll [.observerFailed name] else m
  | .logging => m.logAll [.pipelineFailed (subjectKind refusal.subject) refusal.cause.message]

/-- Tells every observer of a failure, in the order in which they were added. -/
def report : Nat → Report
  | 0, m, _, _ => m
  | depth + 1, m, refusal, listener =>
    m.observers.foldl (tellObserver (report depth) refusal listener) m

/-- How deep observers may cause each other to be told. -/
def reportDepth : Nat := 100

/-- Tells every observer of a failure. -/
def tellAll : Report := report reportDepth

/-- Performs a step that is done at once. -/
def perform (m : Machine) (s : Step) : Machine × Answer := m.performWith tellAll s

end Machine

end Switchboard.Scenario
