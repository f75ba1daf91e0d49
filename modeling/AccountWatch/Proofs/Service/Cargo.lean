import AccountWatch.Proofs.Service.Deeds

/-! What a service carries along while its connection is opened and closed: the account, the currency, the session,
the subscribers, what was handed over, and what the world around chose for the transport. Whoever waits
for the connection or inside the transport comes back without touching it. -/
namespace AccountWatch

def Transport.settings (t : Transport) : Transport := { t with streams := 0, opens := 0, closes := 0 }

structure Cargo where
  account : Option Address
  currency : String
  session : Session
  publisher : Publisher
  sent : List Handed
  settings : Transport

theorem connectSettings (t : Transport) : t.connect.1.settings = t.settings := by
  unfold Transport.connect
  split <;> rfl

namespace Service

def cargo (s : Service) : Cargo where
  account := s.account
  currency := s.currency
  session := s.session
  publisher := s.publisher
  sent := s.sent
  settings := s.transport.settings

@[simp] theorem cargoEnter (s : Service) (next : Phase) : (s.enter next).cargo = s.cargo := by
  unfold enter
  split <;> rfl

@[simp] theorem cargoAbortHandle (s : Service) : s.abortHandle.cargo = s.cargo := by
  unfold abortHandle
  split <;> rfl

theorem cargoBeginOpen (s : Service) (number : Nat) : (s.beginOpen number).1.cargo = s.cargo := by
  unfold beginOpen
  split
  · rfl
  · rfl
  · rfl
  · exact cargoEnter s .opening

theorem cargoEndOpen (s : Service) : s.endOpen.1.cargo = s.cargo := by
  have settings := connectSettings s.transport
  unfold endOpen
  dsimp only
  generalize s.transport.connect = connected at settings
  obtain ⟨transport, refusal⟩ := connected
  have answered : ({ s with connecting := none, transport } : Service).cargo = s.cargo :=
    congrArg (fun settings => { s.cargo with settings }) settings
  cases refusal with
  | some error => exact (cargoEnter _ .closed).trans answered
  | none => exact (cargoAbortHandle _).trans answered

theorem cargoBeginClose (s : Service) (number : Nat) : (s.beginClose number).1.cargo = s.cargo := by
  have leaves : (s.enter .closing).abortHandle.cargo = s.cargo := by simp
  unfold beginClose
  split
  · rfl
  · rfl
  · exact leaves
  · exact leaves

theorem cargoEndClose (s : Service) (number : Nat) : (s.endClose number).1.cargo = s.cargo := by
  have ended : ({ s with closings := s.closings.erase number }.enter .closed).cargo = s.cargo :=
    cargoEnter _ .closed
  unfold endClose
  dsimp only
  split <;> exact ended

theorem endCloseKeeps (s : Service) (number : Nat) :
    (s.endClose number).1.connecting = s.connecting ∧
      (s.endClose number).1.closings = s.closings.erase number := by
  unfold endClose enter
  dsimp only
  split <;> split <;> exact ⟨rfl, rfl⟩

theorem foldCloses {s : Service} {numbers : List Nat} (inside : s.closings = numbers) :
    (numbers.foldl answerClose s).cargo = s.cargo ∧
      (numbers.foldl answerClose s).connecting = s.connecting ∧ (numbers.foldl answerClose s).closings = [] := by
  -- the next state has the rest inside, so each answer finds its number still there
  induction numbers generalizing s with
  | nil => exact ⟨rfl, rfl, inside⟩
  | cons number rest ih =>
    have answered : s.answerClose number = (s.endClose number).1.finish number (s.endClose number).2 := by
      unfold answerClose
      rw [if_pos (by simp [inside])]
    obtain ⟨connecting, closings⟩ := endCloseKeeps s number
    obtain ⟨cargo, free, none⟩ := ih (s := (s.endClose number).1.finish number (s.endClose number).2)
      (closings.trans (by simp [inside]))
    rw [List.foldl_cons, answered]
    exact ⟨cargo.trans (cargoEndClose s number), free.trans connecting, none⟩

theorem cargoSettle (s : Service) : s.settleCloses.cargo = s.cargo := by
  unfold settleCloses
  split
  · rfl
  · exact (foldCloses rfl).1

theorem settleEmpties (s : Service) : s.settleCloses.connecting = s.connecting ∧
    (s.cargo.settings.closeHeld = false → s.settleCloses.closings = []) := by
  obtain ⟨_, free, none⟩ := foldCloses (s := s) rfl
  unfold settleCloses
  split
  · rename_i held
    refine ⟨rfl, fun closes => ?_⟩
    cases closes.symm.trans held
  · exact ⟨free, fun _ => none⟩

theorem cargoLetIn (entrants : List Entrant) (s : Service) : (letIn entrants s).cargo = s.cargo := by
  induction entrants generalizing s with
  | nil => rfl
  | cons e rest ih =>
    cases e with
    | opening number =>
      have began := cargoBeginOpen s number
      unfold letIn
      split <;> rename_i same <;> rw [same] at began
      · rw [ih]
        exact began
      · split
        · exact began
        · rw [ih]
          exact (cargoEndOpen _).trans began
    | closing number =>
      have began := cargoBeginClose s number
      unfold letIn
      split <;> rename_i same <;> rw [same] at began
      · rw [ih]
        exact began
      · rw [ih]
        exact began

theorem letInFrees (entrants : List Entrant) {s : Service} (opens : s.cargo.settings.openHeld = false)
    (free : s.connecting = none) : (letIn entrants s).connecting = none := by
  induction entrants generalizing s with
  | nil => exact free
  | cons e rest ih =>
    cases e with
    | opening number =>
      have began := cargoBeginOpen s number
      unfold letIn
      split <;> rename_i t same <;> rw [same] at began
      · obtain rfl := beginOpenEnds same
        exact ih opens free
      · split
        · rename_i held
          rw [← began] at opens
          cases opens.symm.trans held
        · have opened : t.endOpen.1.cargo.settings.openHeld = false := by
            rw [cargoEndOpen]
            exact began ▸ opens
          exact ih (s := t.endOpen.1.finish number t.endOpen.2) opened (endOpenFree t)
    | closing number =>
      have began := cargoBeginClose s number
      have kept := (beginCloseKeeps s number).trans free
      unfold letIn
      split <;> rename_i same <;> rw [same] at began kept
      · exact ih (began ▸ opens) kept
      · exact ih (began ▸ opens) kept

theorem cargoAnswerOpen (s : Service) : s.answerOpen.cargo = s.cargo := by
  unfold answerOpen
  split
  · rfl
  · rw [cargoSettle, cargoLetIn]
    exact cargoEndOpen s

theorem answerOpenFrees {s : Service} (opens : s.cargo.settings.openHeld = false) :
    s.answerOpen.connecting = none := by
  unfold answerOpen
  split
  · assumption
  · refine (settleEmpties _).1.trans (letInFrees _ ?_ (endOpenFree s))
    exact (congrArg (fun c => c.settings.openHeld) (cargoEndOpen s)).trans opens

end Service
end AccountWatch
