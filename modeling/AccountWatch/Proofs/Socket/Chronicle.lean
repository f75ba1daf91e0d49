import AccountWatch.Proofs.Socket.Turns
import Mathlib.Data.List.Induction

/-! What a link notices and what it puts into its stream. It notices how its attempt to connect ends, and while it
is up the commands it takes, the loss of its channel and what comes from the peer. The stream is told by
that alone: one failure, or an opening, the texts of the peer in the order of their arrival and, once the
link is gone, one signal that says why. -/
namespace AccountWatch.Socket

inductive Notice where
  | connected
  | refused (text : String)
  | command (c : Command)
  | unplugged
  | incoming (i : Incoming)
  deriving DecidableEq, Repr

def Notice.text? : Notice → Option String
  | .incoming (.text t) => some t
  | .incoming .other | .incoming (.close _) | .incoming (.broken _) | .incoming .finished
  | .connected | .refused _ | .command _ | .unplugged => none

inductive Notice.Calm : Notice → Prop where
  | payload (ticket : Nat) (payload : String) : Calm (.command (.text ticket payload))
  | text (t : String) : Calm (.incoming (.text t))
  | other : Calm (.incoming .other)

inductive Notice.Ends : Notice → Signal → Prop where
  | asked (ticket : Nat) : Ends (.command (.close ticket)) (.closed (some "closed by client"))
  | unplugged : Ends .unplugged (.closed none)
  | closed (reason : Option String) : Ends (.incoming (.close reason)) (.closed reason)
  | broken (text : String) : Ends (.incoming (.broken text)) (.failure text)
  | finished : Ends (.incoming .finished) (.closed none)

def frames (notices : List Notice) : List Signal := (notices.filterMap Notice.text?).map .frame

inductive Chronicle (url : String) : Stage → List Notice → List Signal → Prop where
  | dialling : Chronicle url .connecting [] []
  | refused (text : String) :
      Chronicle url .gone [.refused text] [.failure ("connect " ++ url ++ ": " ++ text)]
  | up {notices : List Notice} (calm : ∀ n ∈ notices, n.Calm) :
      Chronicle url .up (.connected :: notices) (.opened :: frames notices)
  | ended {notices : List Notice} {last : Notice} {signal : Signal} (calm : ∀ n ∈ notices, n.Calm)
      (ends : last.Ends signal) :
      Chronicle url .gone (.connected :: (notices ++ [last])) (.opened :: (frames notices ++ [signal]))

namespace Link

def hears (l : Link) (m : Move) : List Notice :=
  match l.stage, m with
  | .connecting, .connected _ => [.connected]
  | .connecting, .refused _ text => [.refused text]
  | .up, .obey _ _ => match l.commands with
      | c :: _ => [.command c]
      | [] => if l.attached then [] else [.unplugged]
  | .up, .receive _ i => [.incoming i]
  | _, _ => []

inductive Reacts (url : String) (l k : Link) : List Notice → Prop where
  | rests (stage : k.stage = l.stage) (signals : k.signals = l.signals) : Reacts url l k []
  | opens (before : l.stage = .connecting) (after : k.stage = .up) (signals : k.signals = l.signals ++ [.opened]) :
      Reacts url l k [.connected]
  | fails {text : String} (before : l.stage = .connecting) (after : k.stage = .gone)
      (signals : k.signals = l.signals ++ [.failure ("connect " ++ url ++ ": " ++ text)]) :
      Reacts url l k [.refused text]
  | continues {n : Notice} (calm : n.Calm) (before : l.stage = .up) (after : k.stage = .up)
      (signals : k.signals = l.signals ++ frames [n]) : Reacts url l k [n]
  | ends {n : Notice} {signal : Signal} (ends : n.Ends signal) (before : l.stage = .up) (after : k.stage = .gone)
      (signals : k.signals = l.signals ++ [signal]) : Reacts url l k [n]

theorem Reacts.still (url : String) (l : Link) : Reacts url l l [] := .rests rfl rfl

theorem connectedReacts (url : String) (l : Link) (i : Nat) :
    Reacts url l l.connected.1 (l.hears (.connected i)) := by
  unfold connected hears
  cases stage : l.stage with
  | connecting => exact .opens stage rfl rfl
  | up | gone => exact .rests rfl rfl

theorem refusedReacts (url : String) (l : Link) (i : Nat) (text : String) :
    Reacts url l (l.refused url text).1 (l.hears (.refused i text)) := by
  unfold refused hears
  cases stage : l.stage with
  | connecting => exact .fails stage rfl rfl
  | up | gone => exact .rests rfl rfl

theorem obeyReacts (url : String) (l : Link) (i : Nat) (fault : Option String) :
    Reacts url l (l.obey fault).1 (l.hears (.obey i fault)) := by
  unfold obey hears
  cases stage : l.stage with
  | connecting | gone => exact .rests rfl rfl
  | up =>
    cases commands : l.commands with
    | nil =>
      cases plugged : l.attached with
      | true => exact .rests rfl rfl
      | false => exact .ends .unplugged stage rfl rfl
    | cons c rest =>
      cases c with
      | close ticket => exact .ends (.asked ticket) stage rfl rfl
      | text ticket payload =>
        have silent : l.signals = l.signals ++ frames [.command (.text ticket payload)] := (List.append_nil _).symm
        cases fault <;> exact .continues (.payload ticket payload) stage rfl silent

theorem receiveReacts (url : String) (l : Link) (j : Nat) (i : Incoming) :
    Reacts url l (l.receive i).1 (l.hears (.receive j i)) := by
  unfold receive hears
  cases stage : l.stage with
  | connecting | gone => exact .rests rfl rfl
  | up =>
    cases i with
    | text t => exact .continues (.text t) stage rfl rfl
    | other => exact .continues .other stage stage (List.append_nil _).symm
    | close reason => exact .ends (.closed reason) stage rfl rfl
    | broken text => exact .ends (.broken text) stage rfl rfl
    | finished => exact .ends .finished stage rfl rfl

end Link

theorem framesAppend (left right : List Notice) : frames (left ++ right) = frames left ++ frames right := by
  simp [frames]

theorem Chronicle.react {url : String} {l k : Link} {told heard : List Notice}
    (chronicle : Chronicle url l.stage told l.signals) (reacts : l.Reacts url k heard) :
    Chronicle url k.stage (told ++ heard) k.signals := by
  cases reacts with
  | rests stage signals => rwa [stage, signals, List.append_nil]
  | opens before after signals =>
    rw [before] at chronicle
    generalize l.signals = stream at chronicle signals
    cases chronicle
    rw [after, signals]
    exact .up nofun
  | @fails text before after signals =>
    rw [before] at chronicle
    generalize l.signals = stream at chronicle signals
    cases chronicle
    rw [after, signals]
    exact .refused text
  | @continues n calm before after signals =>
    rw [before] at chronicle
    generalize l.signals = stream at chronicle signals
    cases chronicle with
    | @up notices earlier =>
      rw [after, signals, List.cons_append, List.cons_append, ← framesAppend]
      refine .up fun m mem => ?_
      rcases List.mem_append.mp mem with old | new
      · exact earlier m old
      · exact List.mem_singleton.mp new ▸ calm
  | @ends n signal ends before after signals =>
    rw [before] at chronicle
    generalize l.signals = stream at chronicle signals
    cases chronicle with
    | up calm =>
      rw [after, signals]
      exact .ended calm ends

def notices (i : Nat) (s : Socket) (m : Move) : List Notice :=
  if m.link? = some i then s.links[i]?.toList.flatMap fun l => l.hears m else []

def noticed (i : Nat) (s : Socket) (moves : List Move) : List Notice := history (notices i) s moves

section
variable {s : Socket} {i : Nat} {l : Link}

theorem noticesThere {m : Move} (own : m.link? = some i) (there : s.links[i]? = some l) :
    notices i s m = l.hears m := by
  simp [notices, own, there]

theorem noticesNone {m : Move} (absent : s.links[i]? = none) : notices i s m = [] := by
  simp [notices, absent]

theorem onLinkReacts {m : Move} (there : s.links[i]? = some l) {j : Nat} (turn : m.link? = some j)
    {act : Link → Link × List Ack} (reacts : l.Reacts s.url (act l).1 (l.hears m)) :
    ∃ k, (s.onLink j act).links[i]? = some k ∧ l.Reacts s.url k (notices i s m) := by
  by_cases own : j = i
  · subst own
    rw [onLinkThere there, noticesThere turn there]
    exact ⟨_, setSelf there _, reacts⟩
  · have silent : notices i s m = [] := by simp [notices, turn, own]
    rw [silent]
    exact ⟨l, (onLinkApart s own act).trans there, .still _ l⟩

theorem callReacts {m : Move} (there : s.links[i]? = some l) (call : m.link? = none) :
    ∃ k, (s.move m).links[i]? = some k ∧ l.Reacts s.url k (notices i s m) := by
  obtain ⟨k, found, grows⟩ := callGrows call there
  have silent : notices i s m = [] := by simp [notices, call]
  rw [silent]
  exact ⟨k, found, .rests grows.stage grows.signals⟩

theorem moveReacts (there : s.links[i]? = some l) (m : Move) :
    ∃ k, (s.move m).links[i]? = some k ∧ l.Reacts s.url k (notices i s m) := by
  cases m with
  | openUp | send | close => exact callReacts there rfl
  | connected j => exact onLinkReacts there rfl (l.connectedReacts s.url j)
  | refused j text => exact onLinkReacts there rfl (l.refusedReacts s.url j text)
  | obey j fault => exact onLinkReacts there rfl (l.obeyReacts s.url j fault)
  | receive j incoming => exact onLinkReacts there rfl (l.receiveReacts s.url j incoming)

theorem goneStays (there : s.links[i]? = some l) (gone : l.stage = .gone) (moves : List Move) :
    ∃ k, (s.run moves).links[i]? = some k ∧ k.stage = .gone ∧ k.signals = l.signals := by
  induction moves generalizing s l with
  | nil => exact ⟨l, there, gone, rfl⟩
  | cons m rest ih =>
    obtain ⟨k, found, reacts⟩ := moveReacts there m
    generalize notices i s m = heard at reacts
    have still : k.stage = .gone ∧ k.signals = l.signals := by
      cases reacts with
      | rests stage signals => exact ⟨stage.trans gone, signals⟩
      | opens before | fails before | continues _ before | ends _ before => cases gone.symm.trans before
    obtain ⟨m, last, ended, same⟩ := ih found still.1
    exact ⟨m, last, ended, same.trans still.2⟩

end

theorem chronicled (url : String) (moves : List Move) (i : Nat) :
    (((start url).run moves).links[i]? = none → noticed i (start url) moves = []) ∧
      ∀ l, ((start url).run moves).links[i]? = some l →
        Chronicle url l.stage (noticed i (start url) moves) l.signals := by
  induction moves using List.reverseRecOn with
  | nil => exact ⟨fun _ => rfl, nofun⟩
  | append_singleton moves m ih =>
    rw [runConcat, noticed, historyConcat]
    generalize found : (start url).run moves = s at ih
    have same : s.url = url := found ▸ runUrl (start url) moves
    cases before : s.links[i]? with
    | none =>
      rw [noticesNone before, List.append_nil]
      refine ⟨fun _ => ih.1 before, fun k there => ?_⟩
      rw [newLink before there, show history _ _ _ = [] from ih.1 before]
      exact .dialling
    | some l =>
      obtain ⟨k, there, reacts⟩ := moveReacts before m
      rw [same] at reacts
      refine ⟨fun absent => (Option.some_ne_none k (there.symm.trans absent)).elim, fun n found => ?_⟩
      obtain rfl : k = n := Option.some.inj (there.symm.trans found)
      exact (ih.2 l before).react reacts

theorem Link.hearsCommand {l : Link} {m : Move} {c : Command} (heard : .command c ∈ l.hears m) :
    c ∈ l.commands := by
  unfold hears at heard
  split at heard
  · simp at heard
  · simp at heard
  · split at heard
    · rename_i next
      obtain rfl : c = _ := by simpa using heard
      exact next ▸ List.mem_cons_self
    · split at heard <;> simp at heard
  · simp at heard
  · simp at heard

theorem Link.hearsLoss {l : Link} {m : Move} (heard : .unplugged ∈ l.hears m) :
    l.stage ≠ .gone ∧ l.commands = [] ∧ l.attached = false := by
  unfold hears at heard
  split at heard
  · simp at heard
  · simp at heard
  · rename_i up
    split at heard
    · simp at heard
    · rename_i done
      split at heard
      · simp at heard
      · rename_i off
        exact ⟨by simp [up], done, by simpa using off⟩
  · simp at heard
  · simp at heard

theorem noticesLink {i : Nat} {s : Socket} {m : Move} {n : Notice} (heard : n ∈ notices i s m) :
    ∃ l, s.links[i]? = some l ∧ n ∈ l.hears m := by
  unfold notices at heard
  split at heard
  · obtain ⟨l, there, mem⟩ := List.mem_flatMap.mp heard
    exact ⟨l, Option.mem_toList.mp there, mem⟩
  · cases heard

theorem commandsAsked {url : String} {moves : List Move} {i : Nat} {c : Command}
    (heard : .command c ∈ noticed i (start url) moves) : ⟨c, some i⟩ ∈ history asks (start url) moves := by
  obtain ⟨before, m, after, rfl, now⟩ := (historyOrigin ..).mp heard
  obtain ⟨l, there, mem⟩ := noticesLink now
  have asked := (((runLedger url before).booked i l there).queued c (Link.hearsCommand mem)).1
  rw [historyAppend]
  exact List.mem_append_left _ asked

theorem lossReplaced {url : String} {moves : List Move} {i : Nat}
    (heard : .unplugged ∈ noticed i (start url) moves) : i ∈ history replaces (start url) moves := by
  obtain ⟨before, m, after, rfl, now⟩ := (historyOrigin ..).mp heard
  obtain ⟨l, there, mem⟩ := noticesLink now
  obtain ⟨live, done, off⟩ := Link.hearsLoss mem
  rw [historyAppend]
  refine List.mem_append_left _ ?_
  rcases ((runLedger url before).booked i l there).unplugged live off with ⟨ticket, waits⟩ | replaced
  · rw [done] at waits
    cases waits
  · exact replaced

/-- Every link's stream is told by what the link noticed, and ends with its last signal. What it took as a
command was asked of it, and its channel was lost to another opening. -/
theorem streamIsTold (url : String) (moves : List Move) (i : Nat) :
    let first := start url
    let heard := noticed i first moves
    (∀ l, (first.run moves).links[i]? = some l → Chronicle url l.stage heard l.signals ∧
      (l.stage = .gone → ∀ more, ∃ k, (first.run (moves ++ more)).links[i]? = some k ∧
        k.stage = .gone ∧ k.signals = l.signals)) ∧
      (∀ c, .command c ∈ heard → ⟨c, some i⟩ ∈ history asks first moves) ∧
      (.unplugged ∈ heard → i ∈ history replaces first moves) := by
  intro first heard
  refine ⟨fun l there => ⟨(chronicled url moves i).2 l there, fun gone more => ?_⟩,
    fun c mem => commandsAsked mem, fun mem => lossReplaced mem⟩
  rw [runAppend]
  exact goneStays there gone more

example :
    let s := (start "ws://a").run [.openUp, .receive 0 (.text "early"), .connected 0, .receive 0 (.text "1"),
      .receive 0 .other, .send "2", .close, .obey 0 none, .receive 0 (.text "3"), .obey 0 none,
      .receive 0 (.text "late")]
    s.links.map Link.signals = [[.opened, .frame "1", .frame "3", .closed (some "closed by client")]] := by
  decide

end AccountWatch.Socket
