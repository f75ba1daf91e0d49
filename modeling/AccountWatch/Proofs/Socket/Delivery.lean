import AccountWatch.Proofs.Socket.Turns
import Mathlib.Data.List.DropRight
import Mathlib.Data.List.Sort

/-! What a caller can rely on. A payload that was acknowledged is on the wire of the link that was opened last
before its call, once, and on no other; one that was turned away is on none. Each link writes its payloads
in the order of the calls and the end after all of them. Closing never fails, and waits no longer than
its link takes to come to it. -/
namespace AccountWatch.Socket

def Wrote (s : Socket) (ticket i : Nat) (payload : String) : Prop :=
  ∃ l, s.links[i]? = some l ∧ .text ticket payload ∈ l.written

def Written.text? : Written → Option (Nat × String)
  | .text ticket payload => some (ticket, payload)
  | .close => none

def Call.textTo? (i : Nat) : Call → Option (Nat × String)
  | ⟨.text ticket payload, some j⟩ => if j = i then some (ticket, payload) else none
  | ⟨.text _ _, none⟩ | ⟨.close _, _⟩ => none

/-- What becomes of a payload handed over in the state `t`, after the moves `before`. -/
structure Delivers (before : List Move) (payload : String) (t s : Socket) : Prop where
  written : s.ack? t.tickets = some ⟨t.tickets, none⟩ →
    ∃ i l, t.current = some i ∧ i + 1 = before.count .openUp ∧ s.links[i]? = some l ∧
      l.written.count (.text t.tickets payload) = 1 ∧
      ∀ j p, s.Wrote t.tickets j p → j = i ∧ p = payload
  unwritten : s.ack? t.tickets = some ⟨t.tickets, some .notConnected⟩ → ∀ j p, ¬ s.Wrote t.tickets j p
  unopened : .openUp ∉ before.rtakeWhile (· ≠ .close) →
    s.ack? t.tickets = some ⟨t.tickets, some .notConnected⟩
  ended : ∀ l, t.links.getLast? = some l → l.stage = .gone →
    s.ack? t.tickets = some ⟨t.tickets, some .notConnected⟩
  preceding : ∀ i l, t.current = some i → s.links[i]? = some l → .close ∈ l.written →
    s.ack? t.tickets = some ⟨t.tickets, none⟩ ∨
      ∃ fault, s.ack? t.tickets = some ⟨t.tickets, some (.send fault)⟩

structure Finishes (t s : Socket) : Prop where
  unfailing : ∀ a, s.ack? t.tickets = some a → a = ⟨t.tickets, none⟩
  returns : s.ack? t.tickets = none → ∃ i l, t.current = some i ∧ s.links[i]? = some l ∧
    .close t.tickets ∈ l.commands ∧
    (∀ later : List Move, l.commands.length ≤ later.countP (Move.obeys i) →
      ((s.move (.connected i)).run later).ack? t.tickets = some ⟨t.tickets, none⟩) ∧
    (l.stage = .connecting → ∀ text later,
      ((s.move (.refused i text)).run later).ack? t.tickets = some ⟨t.tickets, none⟩)

structure Link.Faithful (i : Nat) (calls : List Call) (l : Link) : Prop where
  ordered : (l.written.filterMap Written.text?).Sublist (calls.filterMap (Call.textTo? i))
  once : l.written.count .close ≤ 1
  last : ∀ front rest, l.written = front ++ .close :: rest → rest = []

theorem onLinkCurrent (s : Socket) (i : Nat) (act : Link → Link × List Ack) :
    (s.onLink i act).current = s.current := by
  cases there : s.links[i]? with
  | none => rw [onLinkAbsent there]
  | some l => rw [onLinkThere there]

theorem detachCurrent (s : Socket) : s.detach.current = none := by
  unfold detach
  split
  · assumption
  · exact onLinkCurrent { s with current := none } _ _

theorem commandCurrent (s : Socket) (c : Command) : (s.command c).current = s.current := by
  unfold command
  split
  · rfl
  · exact onLinkCurrent _ _ _

theorem shutCurrent (url : String) {moves : List Move} (shut : .openUp ∉ moves.rtakeWhile (· ≠ .close)) :
    ((start url).run moves).current = none := by
  induction moves using List.reverseRecOn with
  | nil => rfl
  | append_singleton moves m ih =>
    rw [runConcat]
    have before (other : m ≠ .close) : m ≠ .openUp ∧ ((start url).run moves).current = none := by
      rw [List.rtakeWhile_concat_pos _ _ _ (by simpa using other), List.mem_append, not_or] at shut
      exact ⟨fun same => shut.2 (same ▸ List.mem_cons_self), ih shut.1⟩
    cases m with
    | openUp => exact ((before nofun).1 rfl).elim
    | close => exact detachCurrent _
    | send payload => exact (commandCurrent _ _).trans (before nofun).2
    | connected | refused | obey | receive => exact (onLinkCurrent _ _ _).trans (before nofun).2

section
variable {s : Socket} {calls : List Call} {replaced : List Nat}

theorem Ledger.found (ledger : Ledger s calls replaced) {a : Ack} {n : Nat} :
    s.ack? n = some a ↔ a ∈ s.acks ∧ a.ticket = n := by
  constructor
  · intro found
    exact ⟨List.mem_of_find?_eq_some found, by simpa using List.find?_some found⟩
  · rintro ⟨told, rfl⟩
    obtain ⟨b, first⟩ : ∃ b, s.ack? a.ticket = some b :=
      Option.isSome_iff_exists.mp (List.find?_isSome.mpr ⟨a, told, by simp⟩)
    have same : b.ticket = a.ticket := by simpa using List.find?_some first
    rw [first, List.inj_on_of_nodup_map ledger.once (List.mem_of_find?_eq_some first) told same]

theorem Ledger.wrote (ledger : Ledger s calls replaced) {n i : Nat} {payload : String}
    (wrote : s.Wrote n i payload) : ⟨.text n payload, some i⟩ ∈ calls ∧ s.ack? n = some ⟨n, none⟩ := by
  obtain ⟨l, there, mem⟩ := wrote
  obtain ⟨asked, told⟩ := (ledger.booked i l there).written n payload mem
  exact ⟨asked, ledger.found.mpr ⟨told, rfl⟩⟩

theorem Link.Booked.onceWritten {i n : Nat} {payload : String} {acks : List Ack} {l : Link}
    (booked : l.Booked i calls replaced acks) (mem : .text n payload ∈ l.written) :
    l.written.count (.text n payload) = 1 := by
  have distinct : (l.written.filterMap Written.ticket?).Nodup :=
    (List.pairwise_append.mp booked.ordered).1.imp Nat.ne_of_lt
  have most : l.written.count (.text n payload) ≤ (l.written.filterMap Written.ticket?).count n := by
    rw [List.count_filterMap]
    exact List.countP_mono_left fun w _ same => by simp [Written.ticket?, eq_of_beq same]
  have one := List.nodup_iff_count_le_one.mp distinct n
  have some := List.count_pos_iff.mpr mem
  omega

inductive Told (s : Socket) (i : Option Nat) : Command → Prop where
  | waits {j : Nat} {l : Link} {c : Command} (on : i = some j) (there : s.links[j]? = some l)
      (queued : c ∈ l.commands) (untold : s.ack? c.ticket = none) : Told s i c
  | written {n j : Nat} {payload : String} (on : i = some j) (wrote : s.Wrote n j payload)
      (told : s.ack? n = some ⟨n, none⟩) : Told s i (.text n payload)
  | failed {n : Nat} {payload : String} (fault : String) (told : s.ack? n = some ⟨n, some (.send fault)⟩) :
      Told s i (.text n payload)
  | closed {n : Nat} (told : s.ack? n = some ⟨n, none⟩) : Told s i (.close n)
  | abandoned {c : Command} (dropped : ∀ j (l : Link), i = some j → s.links[j]? = some l → .close ∉ l.written)
      (told : s.ack? c.ticket = some c.abandoned) : Told s i c

theorem Ledger.told (ledger : Ledger s calls replaced) {c : Command} {i : Option Nat} (asked : ⟨c, i⟩ ∈ calls) :
    Told s i c := by
  cases ledger.stands _ asked with
  | @waits j l _ there queued =>
    refine .waits rfl there queued (Option.eq_none_iff_forall_ne_some.mpr fun a found => ?_)
    obtain ⟨told, same⟩ := ledger.found.mp found
    exact ((ledger.booked j l there).queued c queued).2 (same ▸ List.mem_map_of_mem told)
  | @answered j l _ there answers =>
    cases answers with
    | written wrote told => exact .written rfl ⟨l, there, wrote⟩ (ledger.found.mpr ⟨told, rfl⟩)
    | failed fault told => exact .failed fault (ledger.found.mpr ⟨told, rfl⟩)
    | closed told => exact .closed (ledger.found.mpr ⟨told, rfl⟩)
    | overtaken _ unclosed told =>
      refine .abandoned (fun k m on found => ?_) (ledger.found.mpr ⟨told, abandonedTicket c⟩)
      obtain rfl : j = k := Option.some.inj on
      obtain rfl : l = m := Option.some.inj (there.symm.trans found)
      exact unclosed
  | unheard told => exact .abandoned nofun (ledger.found.mpr ⟨told, abandonedTicket c⟩)

theorem callText {i : Nat} {c : Call} {x : Nat × String} (is : x ∈ Call.textTo? i c) :
    x.1 = c.ticket ∧ c = ⟨.text x.1 x.2, some i⟩ := by
  obtain ⟨command, link⟩ := c
  cases command with
  | close => cases is
  | text n payload =>
    cases link with
    | none => cases is
    | some j =>
      simp only [Call.textTo?] at is
      split at is
      · rename_i same
        cases is
        exact ⟨rfl, same ▸ rfl⟩
      · cases is

theorem Ledger.faithful (ledger : Ledger s calls replaced) {i : Nat} {l : Link} (there : s.links[i]? = some l) :
    l.Faithful i calls := by
  have booked := ledger.booked i l there
  have ends (front rest : List Written) (split : l.written = front ++ .close :: rest) : rest = [] :=
    booked.final front rest split
  refine ⟨?_, ?_, ends⟩
  · -- both lists ascend by ticket, so that it is enough to find each payload among the calls
    have tickets : (l.written.filterMap Written.text?).map Prod.fst = l.written.filterMap Written.ticket? := by
      rw [List.map_filterMap]
      exact List.filterMap_congr fun w _ => by cases w <;> rfl
    have ascends : (l.written.filterMap Written.text?).Pairwise (·.1 < ·.1) :=
      List.pairwise_map.mp (tickets ▸ (List.pairwise_append.mp booked.ordered).1)
    have numbered : calls.Pairwise (·.ticket < ·.ticket) :=
      List.pairwise_map.mp (ledger.numbered ▸ List.pairwise_lt_range)
    have asked : (calls.filterMap (Call.textTo? i)).Pairwise (·.1 < ·.1) := by
      refine numbered.filterMap _ fun c d less x mem y mem' => ?_
      rwa [(callText mem).1, (callText mem').1]
    refine List.sublist_of_subperm_of_pairwise (List.subperm_of_subset ?_ ?_) ascends asked
    · refine ascends.imp ?_
      rintro x y less rfl
      exact Nat.lt_irrefl _ less
    · rintro ⟨n, payload⟩ mem
      obtain ⟨w, wrote, same⟩ := List.mem_filterMap.mp mem
      cases w with
      | close => cases same
      | text m p =>
        obtain ⟨rfl, rfl⟩ : m = n ∧ p = payload := by simpa [Written.text?] using same
        exact List.mem_filterMap.mpr ⟨_, (booked.written m p wrote).1, by simp [Call.textTo?]⟩
  · by_cases closed : .close ∈ l.written
    · obtain ⟨front, rest, split⟩ := List.append_of_mem closed
      obtain rfl := ends front rest split
      have first : .close ∉ front := by
        intro again
        obtain ⟨before, between, rfl⟩ := List.append_of_mem again
        have nothing := ends before (between ++ [.close]) (by rw [split, List.append_assoc]; rfl)
        simp at nothing
      rw [split, List.count_append, List.count_eq_zero_of_not_mem first]
      exact Nat.le_refl 1
    · rw [List.count_eq_zero_of_not_mem closed]
      exact Nat.zero_le 1

end

theorem askedAmong (url : String) (before after : List Move) {m : Move} {c : Call}
    (asked : c ∈ asks ((start url).run before) m) :
    ∃ calls replaced, Ledger ((((start url).run before).move m).run after) calls replaced ∧ c ∈ calls := by
  have ledger := runLedger url (before ++ m :: after)
  rw [runAppend] at ledger
  exact ⟨_, _, ledger, (historyOrigin ..).mpr ⟨before, m, after, rfl, asked⟩⟩

theorem Called.dropped {s t : Socket} {c : Command} (called : Called s c t)
    (dead : ∀ i (l : Link), s.current = some i → s.links[i]? = some l → l.stage = .gone) :
    c.abandoned ∈ t.acks := by
  cases called with
  | @queued i l current there live => exact (live (dead i l current there)).elim
  | abandoned => exact List.mem_append_right _ List.mem_cons_self

theorem deliversPayload (url : String) (before after : List Move) (payload : String) :
    let t := (start url).run before
    Delivers before payload t ((t.move (.send payload)).run after) := by
  intro t
  have wired : t.Wired := (runLedger url before).toWired
  obtain ⟨calls, replaced, ledger, asked⟩ := askedAmong url before after (m := .send payload)
    (c := ⟨.text t.tickets payload, t.current⟩) List.mem_cons_self
  have turnedAway (dead : ∀ i (l : Link), t.current = some i → t.links[i]? = some l → l.stage = .gone) :
      ((t.move (.send payload)).run after).ack? t.tickets = some ⟨t.tickets, some .notConnected⟩ :=
    ledger.found.mpr ⟨runAcks _ after ((wired.sends payload).dropped dead), rfl⟩
  generalize (t.move (.send payload)).run after = s at ledger turnedAway
  have told := ledger.told asked
  constructor
  · intro ok
    cases told with
    | waits _ _ _ untold => cases ok.symm.trans untold
    | failed _ failed => cases ok.symm.trans failed
    | abandoned _ dropped => cases ok.symm.trans dropped
    | @written _ i _ on wrote =>
      obtain ⟨l, there, mem⟩ := wrote
      have last : i + 1 = t.links.length := wired.latest i on
      refine ⟨i, l, on, last.trans ((runLength _ before).trans (Nat.zero_add _)), there,
        (ledger.booked i l there).onceWritten mem, ?_⟩
      intro j p wrote
      have same : (⟨.text t.tickets p, some j⟩ : Call) = ⟨.text t.tickets payload, t.current⟩ :=
        ledger.unique (ledger.wrote wrote).1 asked rfl
      simpa [on, and_comm] using same
  · intro failed j p wrote
    cases failed.symm.trans (ledger.wrote wrote).2
  · intro shut
    have nobody : t.current = none := shutCurrent url shut
    exact turnedAway (by simp [nobody])
  · intro l last gone
    refine turnedAway fun i m current there => ?_
    have latest : i + 1 = t.links.length := wired.latest i current
    rw [List.getLast?_eq_getElem?, ← latest, Nat.add_sub_cancel, there] at last
    exact Option.some.inj last ▸ gone
  · intro i l current there closed
    have booked := ledger.booked i l there
    cases told with
    | written _ _ told => exact .inl told
    | failed fault told => exact .inr ⟨fault, told⟩
    | abandoned dropped => exact (dropped i l current there closed).elim
    | @waits j m _ on found queued =>
      obtain rfl : i = j := Option.some.inj (current.symm.trans on)
      obtain rfl : l = m := Option.some.inj (there.symm.trans found)
      rw [booked.empty (booked.unclosed closed)] at queued
      cases queued

theorem Ledger.unfailing {s : Socket} {calls : List Call} {replaced : List Nat} (ledger : Ledger s calls replaced)
    {n : Nat} {i : Option Nat} (asked : ⟨.close n, i⟩ ∈ calls) {a : Ack} (told : s.ack? n = some a) :
    a = ⟨n, none⟩ := by
  cases ledger.told asked with
  | waits _ _ _ untold => cases told.symm.trans untold
  | closed answer | abandoned _ answer => exact Option.some.inj (told.symm.trans answer)

theorem Link.raised {l : Link} (live : l.stage ≠ .gone) :
    l.connected.1.stage = .up ∧ l.connected.1.commands = l.commands := by
  unfold connected
  split
  · exact ⟨rfl, rfl⟩
  · exact ⟨‹_›, rfl⟩
  · rename_i gone
    exact (live gone).elim

theorem Link.refusedAnswers {l : Link} {c : Command} (dialling : l.stage = .connecting) (queued : c ∈ l.commands)
    {url text : String} : c.ticket ∈ (l.refused url text).2.map Ack.ticket := by
  unfold refused
  rw [dialling]
  exact overAnswers queued _

theorem finishesClose (url : String) (before after : List Move) :
    let t := (start url).run before
    Finishes t ((t.move .close).run after) := by
  intro t
  have ledgers (later : List Move) := askedAmong url before later (m := .close)
    (c := ⟨.close t.tickets, t.current⟩) List.mem_cons_self
  have ok (later : List Move) {a : Ack} (told : ((t.move .close).run later).ack? t.tickets = some a) :
      a = ⟨t.tickets, none⟩ := by
    obtain ⟨calls, replaced, ledger, asked⟩ := ledgers later
    exact ledger.unfailing asked told
  have answered (later : List Move) (told : t.tickets ∈ ((t.move .close).run later).acks.map Ack.ticket) :
      ((t.move .close).run later).ack? t.tickets = some ⟨t.tickets, none⟩ := by
    obtain ⟨calls, replaced, ledger, _⟩ := ledgers later
    obtain ⟨a, mem, same⟩ := List.mem_map.mp told
    have first := ledger.found.mpr ⟨mem, same⟩
    exact ok later first ▸ first
  refine ⟨fun a told => ok after told, fun untold => ?_⟩
  obtain ⟨calls, replaced, ledger, asked⟩ := ledgers after
  cases ledger.told asked with
  | closed told | abandoned _ told => cases untold.symm.trans told
  | @waits i l _ on there queued =>
    have live : l.stage ≠ .gone := by
      intro gone
      rw [(ledger.booked i l there).empty gone] at queued
      cases queued
    refine ⟨i, l, on, there, queued, ?_, ?_⟩
    · intro later enough
      obtain ⟨up, same⟩ := Link.raised live
      have holds : Holds (((t.move .close).run after).move (.connected i)) i (.close t.tickets)
          (later.countP (Move.obeys i)) := by
        refine ⟨l.connected.1, ?_, up, ?_⟩
        · exact (congrArg (·.links[i]?) (onLinkThere there _)).trans (setSelf there _)
        · rwa [same, List.take_of_length_le enough]
      have told := answered (after ++ .connected i :: later)
      rw [runAppend] at told
      exact told holds.run
    · intro dialling text later
      have told := answered (after ++ .refused i text :: later)
      rw [runAppend] at told
      refine told (List.map_subset _ (runAcks _ later) ?_)
      change _ ∈ (onLink _ i _).acks.map Ack.ticket
      rw [onLinkThere there, List.map_append]
      exact List.mem_append_right _ (Link.refusedAnswers dialling queued)

theorem callsAreKept (url : String) (before after : List Move) :
    let t := (start url).run before
    (∀ payload, Delivers before payload t ((t.move (.send payload)).run after)) ∧
      Finishes t ((t.move .close).run after) ∧
      (∀ i (l : Link), t.links[i]? = some l → l.Faithful i (history asks (start url) before)) ∧
      (history asks (start url) before).map Call.ticket = List.range t.tickets :=
  ⟨deliversPayload url before after, finishesClose url before after,
    fun _ _ there => (runLedger url before).faithful there, (runLedger url before).numbered⟩

example :
    let s := (start "ws://a").run [.openUp, .connected 0, .send "1", .openUp, .connected 1, .send "2",
      .obey 0 none, .obey 0 none, .obey 1 none]
    s.acks = [⟨0, none⟩, ⟨1, none⟩] ∧
      s.links.map Link.written = [[.text 0 "1", .close], [.text 1 "2"]] := by
  decide

end AccountWatch.Socket
