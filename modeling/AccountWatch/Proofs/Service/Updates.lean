import AccountWatch.Proofs.Service.Bursts
import AccountWatch.Proofs.Service.Soundness

/-! Updates over whole runs. An update begins with a call that asks for one and with a connection that comes up,
and with nothing else; what it sends is settled by the session and the currency of that moment. Each of
them sends all its requests in order, whatever happens meanwhile, unless one still waits or the
connection was closed while one did. -/
namespace AccountWatch
open Connection (Stage Moves Path)

namespace Connection

def Spent (c : Connection) (stream : Nat) : Prop :=
  stream ≤ c.streams ∧ (c.phase = .opening → c.connecting = none → stream ≠ c.streams)

theorem Spent.move {c d : Connection} {stream : Nat} (spent : c.Spent stream) (moved : Moves c d) :
    d.Spent stream := by
  obtain ⟨known, passed⟩ := spent
  cases moved with
  | establish => exact ⟨by simpa using known, by simp⟩
  | crash | fade => exact ⟨known, passed⟩
  | lose => exact ⟨by simpa [release] using known, by simp [release]⟩
  | dial => exact ⟨by simpa [dial] using known, by simp [dial]⟩
  | refuse => exact ⟨by simpa [refuse] using known, by simp [refuse]⟩
  | accept =>
    rw [acceptKeeps]
    refine ⟨Nat.le_succ_of_le known, ?_⟩
    intro _ _
    dsimp only
    omega
  | leave =>
    rw [leaveKeeps]
    exact ⟨known, by simp⟩
  | left => exact ⟨by simpa [Connection.left] using known, by simp [Connection.left]⟩

theorem Spent.path {c d : Connection} {stream : Nat} (spent : c.Spent stream) (path : Path c d) :
    d.Spent stream := by
  induction path with
  | refl => exact spent
  | tail _ last ih => exact ih.move last

theorem enterUp {c : Connection} (opening : c.phase = .opening) : (c.enter .connected).ups = c.ups + 1 := by
  unfold ups enter
  rw [if_neg (by simp [opening]), List.count_append, List.count_singleton_self]

theorem Moves.risen {c d : Connection} (moved : Moves c d) (ups : d.ups = c.ups) (up : d.phase = .connected) :
    c.phase = .connected := by
  cases moved with
  | establish reader opening =>
    rw [enterUp opening] at ups
    omega
  | crash | fade => exact up
  | lose => simp [release] at up
  | dial => simp [Connection.dial] at up
  | refuse => simp [Connection.refuse] at up
  | accept =>
    rw [acceptKeeps] at up
    exact up
  | leave =>
    rw [leaveKeeps] at up
    cases up
  | left => simp [Connection.left] at up

end Connection

def Caller.listens : Caller → Bool
  | .listener _ => true
  | .call _ => false

def Caller.Used (c : Connection) (calls : Nat) : Caller → Prop
  | .listener stream => c.Spent stream
  | .call number => number ≤ calls

theorem Caller.Used.later {c d : Connection} {m n : Nat} {caller : Caller} (used : caller.Used c m)
    (path : Path c d) (more : m ≤ n) : caller.Used d n := by
  cases caller with
  | listener stream => exact Connection.Spent.path used path
  | call number => exact Nat.le_trans used more

namespace Service

def begun (s : Service) (i : Input) (t : Service) : List Asked :=
  match i with
  | .requestUpdate => [⟨.call (s.calls + 1), s.session, s.currency⟩]
  | _ =>
      if s.phase = .opening ∧ t.phase = .connected then
        [⟨.listener s.transport.streams, s.session, s.currency⟩]
      else []

def updates (s : Service) : List Input → List Asked
  | [] => []
  | i :: rest => s.begun i (s.step i).1 ++ (s.step i).1.updates rest

theorem begunOther {s t : Service} {i : Input} (other : i ≠ .requestUpdate) : s.begun i t =
    if s.phase = .opening ∧ t.phase = .connected then
      [⟨.listener s.transport.streams, s.session, s.currency⟩]
    else [] := by
  unfold begun
  split
  · exact (other rfl).elim
  · rfl

theorem begunNone {s t : Service} {i : Input} (other : i ≠ .requestUpdate)
    (same : s.phase = .opening → t.phase ≠ .connected) : s.begun i t = [] := by
  rw [begunOther other, if_neg]
  rintro ⟨opening, up⟩
  exact same opening up

theorem Quiet.risen {s t : Service} (quiet : Quiet s t) (up : t.phase = .connected) :
    s.phase = .connected := by
  cases quiet with
  | still connection | count connection => exact (congrArg Connection.phase connection).symm.trans up
  | pass _ moved ups => exact moved.risen ups up

theorem Quiets.risen {s t : Service} (quiets : Quiets s t) (up : t.phase = .connected) :
    s.phase = .connected := by
  induction quiets with
  | refl => exact up
  | tail _ last ih => exact ih (last.risen up)

theorem Effect.begins {s t : Service} {i : Input} (sound : s.Sound) (effect : Effect s i t) :
    t.asked = s.asked ++ s.begun i t ∧
      t.connection.ups = s.connection.ups + (s.begun i t).countP fun x => x.caller.listens := by
  have nothing (other : i ≠ .requestUpdate) (risen : t.phase = .connected → s.phase = .connected)
      (asked : t.asked = s.asked) (ups : t.connection.ups = s.connection.ups) :
      t.asked = s.asked ++ s.begun i t ∧
        t.connection.ups = s.connection.ups + (s.begun i t).countP fun x => x.caller.listens := by
    have none : s.begun i t = [] := begunNone other fun opening up => by simp [risen up] at opening
    rw [none, List.append_nil]
    exact ⟨asked, ups⟩
  cases effect with
  | quiet other quiets => exact nothing other quiets.risen quiets.kept.asked quiets.kept.ups
  | deed other deed =>
    cases deed with
    | quiet quiet => exact nothing other quiet.risen quiet.kept.asked quiet.kept.ups
    | answer b waits connection hands =>
      have phase : t.phase = s.phase := congrArg Connection.phase connection
      exact nothing other phase.symm.trans hands.kept.1 (congrArg Connection.ups connection)
    | establish stream reader _ opening connection hands =>
      have up : t.phase = .connected := by
        change t.connection.phase = .connected
        rw [connection]
        exact Connection.enterPhase _ _
      obtain rfl : stream = s.transport.streams := (sound.stage.read reader).1
      rw [begunOther other, if_pos ⟨opening, up⟩, connection, Connection.enterUp opening]
      exact ⟨hands.kept.1, rfl⟩
    | detach _ _ _ moved ups traffic =>
      exact nothing other (moved.risen ups) (keptTraffic traffic ups).asked ups
  | asks asks => exact ⟨asks.hands.kept.1, congrArg Connection.ups asks.connection⟩
  | leaves leaves quiets =>
    have kept := leaves.kept.trans quiets.kept
    exact nothing nofun (fun _ => leaves.up) kept.asked kept.ups

structure Attributed (dropped : Burst → Prop) (s : Service) : Prop where
  sound : s.Sound
  used : ∀ x ∈ s.asked, x.caller.Used s.connection s.calls
  accounted : s.traffic.Accounted dropped

theorem Attributed.later {dropped : Burst → Prop} {s t : Service} (held : s.Attributed dropped)
    (asked : t.asked = s.asked) (path : Path s.connection t.connection) (calls : s.calls ≤ t.calls) :
    ∀ x ∈ t.asked, x.caller.Used t.connection t.calls := by
  intro x mem
  rw [asked] at mem
  exact (held.used x mem).later path calls

theorem Attributed.begins {dropped : Burst → Prop} {s t : Service} (held : s.Attributed dropped)
    {x : Asked} {a : Traffic} (same : a = s.traffic ∨ a = s.traffic.count)
    (fresh : ∀ y ∈ s.asked, y.caller ≠ x.caller) (hands : Traffic.Hands x.caller x.requests (a.ask x) t.traffic)
    (sound : t.Sound) (path : Path s.connection t.connection) (used : x.caller.Used t.connection t.calls) :
    t.Attributed dropped := by
  have accounted : a.Accounted dropped := by
    rcases same with rfl | rfl
    · exact held.accounted
    · exact held.accounted.count
  have asked : a.asked = s.asked := by rcases same with rfl | rfl <;> rfl
  have calls : s.calls ≤ t.calls := by
    have kept : t.calls = a.calls := hands.kept.2
    rcases same with rfl | rfl
    · exact Nat.le_of_eq kept.symm
    · exact kept ▸ Nat.le_succ s.calls
  refine ⟨sound, ?_, (accounted.begins (asked ▸ fresh)).hands hands⟩
  intro y mem
  have grown : t.asked = s.asked ++ [x] := hands.kept.1.trans (congrArg (· ++ [x]) asked)
  rw [grown] at mem
  rcases List.mem_append.mp mem with old | new
  · exact (held.used y old).later path calls
  · rw [List.mem_singleton.mp new]
    exact used

theorem Quiet.attributed {dropped : Burst → Prop} {s t : Service} (held : s.Attributed dropped)
    (quiet : Quiet s t) : t.Attributed dropped := by
  refine ⟨quiet.sound held.sound, held.later quiet.kept.asked quiet.path quiet.kept.calls, ?_⟩
  cases quiet with
  | still _ traffic => exact traffic ▸ held.accounted
  | count _ traffic => exact traffic ▸ held.accounted.count
  | pass apart _ _ traffic => exact held.sound.passed apart traffic ▸ held.accounted

theorem Quiets.attributed {dropped : Burst → Prop} {s t : Service} (held : s.Attributed dropped)
    (quiets : Quiets s t) : t.Attributed dropped := by
  induction quiets with
  | refl => exact held
  | tail _ last ih => exact last.attributed ih

theorem Deed.attributed {dropped : Burst → Prop} {s t : Service} (held : s.Attributed dropped)
    (deed : Deed s t) : t.Attributed dropped := by
  have sound := deed.sound held.sound
  have path := deed.path
  cases deed with
  | quiet quiet => exact quiet.attributed held
  | answer b waits connection hands =>
    have calls : t.calls = s.calls := hands.kept.2
    obtain ⟨x, own, owes⟩ := held.accounted.answers waits
    exact ⟨sound, held.later hands.kept.1 path (Nat.le_of_eq calls.symm), owes.hands (own ▸ hands)⟩
  | establish stream reader ready opening connection hands =>
    obtain ⟨latest, _, _, _, free, _⟩ := held.sound.stage.read reader
    refine held.begins (x := ⟨.listener stream, s.session, s.currency⟩) (.inl rfl) ?_ hands sound path ?_
    · intro y mem same
      have spent : y.caller.Used s.connection s.calls := held.used y mem
      rw [same] at spent
      exact spent.2 opening free latest
    · change t.connection.Spent stream
      rw [connection]
      exact ⟨by simp [latest], by simp⟩
  | detach _ _ _ _ ups traffic =>
    have kept := keptTraffic traffic ups
    exact ⟨sound, held.later kept.asked path kept.calls, traffic ▸ held.accounted⟩

theorem Asks.attributed {dropped : Burst → Prop} {s t : Service} (held : s.Attributed dropped)
    (asks : Asks s t) : t.Attributed dropped := by
  refine held.begins (x := ⟨.call (s.calls + 1), s.session, s.currency⟩) (.inr rfl) ?_ asks.hands
    (asks.sound held.sound) (asks.connection ▸ .refl) ?_
  · intro y mem same
    have used : y.caller.Used s.connection s.calls := held.used y mem
    rw [same] at used
    exact Nat.not_succ_le_self _ used
  · exact Nat.le_of_eq asks.hands.kept.2.symm

theorem Leaves.attributed {dropped : Burst → Prop} {s t : Service} (held : s.Attributed dropped)
    (leaves : Leaves s t) :
    t.Attributed fun b => dropped b ∨ b ∈ s.bursts ∧ ∃ stream, b.caller = .listener stream := by
  refine ⟨leaves.sound held.sound, ?_, leaves.traffic ▸ held.accounted.count.aborts s.handle⟩
  exact held.later leaves.kept.asked leaves.path leaves.kept.calls

theorem Effect.attributed {dropped : Burst → Prop} {s t : Service} {i : Input}
    (held : s.Attributed dropped) (effect : Effect s i t) :
    t.Attributed fun b =>
      dropped b ∨ i = .shutDown ∧ b ∈ s.bursts ∧ ∃ stream, b.caller = .listener stream := by
  have more {t : Service} (held : t.Attributed dropped) : t.Attributed fun b =>
      dropped b ∨ i = .shutDown ∧ b ∈ s.bursts ∧ ∃ stream, b.caller = .listener stream :=
    ⟨held.sound, held.used, held.accounted.mono fun _ => .inl⟩
  cases effect with
  | quiet _ quiets => exact more (quiets.attributed held)
  | deed _ deed => exact more (deed.attributed held)
  | asks asks => exact more (asks.attributed held)
  | leaves leaves quiets =>
    have left := quiets.attributed (leaves.attributed held)
    exact ⟨left.sound, left.used, left.accounted.mono fun b gone => gone.imp_right fun gone => ⟨rfl, gone⟩⟩

-- only the burst of a listener goes with its connection; a call that waits is not aborted
def Dropped (s : Service) (moves : List Input) (b : Burst) : Prop :=
  ∃ before after, moves = before ++ .shutDown :: after ∧ b ∈ (s.run before).bursts ∧
    ∃ stream, b.caller = .listener stream

theorem Dropped.after {s : Service} {i : Input} {rest : List Input} {b : Burst}
    (gone : (s.step i).1.Dropped rest b) : s.Dropped (i :: rest) b := by
  obtain ⟨before, after, rfl, waits, own⟩ := gone
  exact ⟨i :: before, after, rfl, waits, own⟩

theorem movesAttributed {dropped : Burst → Prop} {s : Service} (held : s.Attributed dropped)
    {moves : List Input} (single : ∀ i ∈ moves, i.Single) :
    (s.run moves).Attributed fun b => dropped b ∨ s.Dropped moves b := by
  induction moves generalizing s dropped with
  | nil => exact ⟨held.sound, held.used, held.accounted.mono fun _ => .inl⟩
  | cons i rest ih =>
    have effect := moveEffect held.sound.stage (single i List.mem_cons_self)
    have later := ih (effect.attributed held) fun j mem => single j (List.mem_cons_of_mem i mem)
    refine ⟨later.sound, later.used, later.accounted.mono ?_⟩
    rintro b ((old | ⟨rfl, waits, own⟩) | gone)
    · exact .inl old
    · exact .inr ⟨[], rest, rfl, waits, own⟩
    · exact .inr gone.after

theorem movesBegin {s : Service} (sound : s.Sound) {moves : List Input} (single : ∀ i ∈ moves, i.Single) :
    (s.run moves).asked = s.asked ++ s.updates moves ∧
      (s.run moves).connection.ups =
        s.connection.ups + (s.updates moves).countP fun x => x.caller.listens := by
  induction moves generalizing s with
  | nil => exact ⟨(List.append_nil _).symm, rfl⟩
  | cons i rest ih =>
    have effect := moveEffect sound.stage (single i List.mem_cons_self)
    obtain ⟨first, up⟩ := effect.begins sound
    obtain ⟨later, ups⟩ := ih (effect.sound sound) fun j mem => single j (List.mem_cons_of_mem i mem)
    unfold updates
    rw [runCons, later, first, ups, up, List.countP_append, List.append_assoc, Nat.add_assoc]
    exact ⟨rfl, rfl⟩

theorem startAttributed (account : Option Address) (currency : String) (fallback : UInt64) :
    (start account currency fallback).Attributed fun _ => False :=
  ⟨startSound account currency fallback, nofun, ⟨.nil, nofun, .nil, nofun, nofun⟩⟩

def updateTexts (account currency : String) (count : UInt64) : List String :=
  [Json.Value.text (.object [("action", .string "subscribe"), ("account", .string account), ("currency", .string currency)]),
    Json.Value.text (.object [("action", .string "price"), ("currency", .string currency)]),
    Json.Value.text (.object [("action", .string "price"), ("currency", .string "BTC")]),
    Json.Value.text (.object [("action", .string "history"), ("account", .string account), ("count", .count count)])]

/-- Each payload belongs to one of the updates that began, one for every call that asked and every connection
that came up. An update has sent its four requests in order, and all of them unless one waits or waited
when the connection was closed; it has sent none if there was no address when it began. -/
theorem updatesAreSent (account : Option Address) (currency : String) (fallback : UInt64)
    (inputs : List Input) :
    let first := start account currency fallback
    let s := first.run inputs
    ∃ moves, Unwinds first inputs moves ∧
      ((first.updates moves).map Asked.caller).Nodup ∧
      ((first.updates moves).countP fun x => x.caller.listens) =
        (s.reports.filterMap Report.entered?).count .connected ∧
      (∀ h ∈ s.sent, ∃ x ∈ first.updates moves, x.caller = h.caller) ∧
      ∀ x ∈ first.updates moves, (x.session.address = none → s.handedBy x.caller = []) ∧
        ∀ a, x.session.address = some a →
          let n := x.session.blockCount.getD x.session.fallback
          let requests : List Request :=
            [.subscribe a x.currency, .price x.currency, .price "BTC", .history a n]
          requests.map Request.text = updateTexts a.text x.currency n ∧ s.handedBy x.caller <+: requests ∧
            (s.handedBy x.caller = requests ∨ ∃ b done, b.caller = x.caller ∧
              requests = done ++ b.current :: b.rest ∧ s.handedBy x.caller = done ++ [b.current] ∧
              (b ∈ s.bursts ∨ first.Dropped moves b)) := by
  intro first s
  obtain ⟨moves, unwinds⟩ := unwound first inputs
  have held := movesAttributed (startAttributed account currency fallback) unwinds.singles
  obtain ⟨asked, ups⟩ := movesBegin (startSound account currency fallback) unwinds.singles
  rw [unwinds.reaches] at held asked ups
  have accounted : s.traffic.Accounted fun b => False ∨ first.Dropped moves b := held.accounted
  replace asked : s.asked = first.updates moves := asked.trans (List.nil_append _)
  replace ups : s.connection.ups = (first.updates moves).countP fun x => x.caller.listens :=
    ups.trans (Nat.zero_add _)
  have update (x : Asked) (mem : x ∈ first.updates moves) : s.handedBy x.caller = x.requests ∨
      ∃ b, (b ∈ s.bursts ∨ False ∨ first.Dropped moves b) ∧ x.Stops b (s.handedBy x.caller) := by
    rw [← asked] at mem
    exact accounted.update mem
  refine ⟨moves, unwinds, asked ▸ accounted.distinct, ups.symm, asked ▸ accounted.known, fun x mem => ⟨?_, ?_⟩⟩
  · intro unset
    rcases update x mem with whole | ⟨b, _, stops⟩
    · exact whole.trans (x.requestsUnset unset)
    · exact absurd (x.requestsUnset unset) stops.asks
  · intro a set n requests
    have all : x.requests = requests := x.requestsSet set
    refine ⟨rfl, ?_⟩
    rcases update x mem with whole | ⟨b, found, stops⟩
    · rw [whole, all]
      exact ⟨List.prefix_rfl, .inl rfl⟩
    · have ordered := stops.handed
      rw [all] at ordered
      obtain ⟨own, done, split, handed⟩ := stops
      refine ⟨ordered, .inr ?_⟩
      exact ⟨b, done, own, all.symm.trans split, handed, found.imp_right fun gone => gone.resolve_left id⟩

end Service
end AccountWatch
