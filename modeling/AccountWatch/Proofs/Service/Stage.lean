import AccountWatch.Proofs.Service.Connection

/-! The five stages of a connection and that it is always in one of them. -/
namespace AccountWatch.Connection

@[simp] theorem enterPhase (c : Connection) (next : Phase) : (c.enter next).phase = next := by
  unfold enter
  split
  · assumption
  · rfl

theorem enterKeeps (c : Connection) (next : Phase) :
    c.enter next = { c with phase := next, course := (c.enter next).course } := by
  unfold enter
  split
  · rename_i same
    rw [← same]
  · rfl

@[simp] theorem enterReaders (c : Connection) (next : Phase) : (c.enter next).readers = c.readers := by
  rw [enterKeeps]

@[simp] theorem enterHandle (c : Connection) (next : Phase) : (c.enter next).handle = c.handle := by
  rw [enterKeeps]

@[simp] theorem enterConnecting (c : Connection) (next : Phase) :
    (c.enter next).connecting = c.connecting := by
  rw [enterKeeps]

@[simp] theorem enterClosings (c : Connection) (next : Phase) : (c.enter next).closings = c.closings := by
  rw [enterKeeps]

@[simp] theorem enterStreams (c : Connection) (next : Phase) : (c.enter next).streams = c.streams := by
  rw [enterKeeps]

@[simp] theorem enterCrashes (c : Connection) (next : Phase) : (c.enter next).crashes = c.crashes := by
  rw [enterKeeps]

theorem releaseHandleKeeps (c : Connection) :
    c.releaseHandle = { c with handle := none, readers := c.releaseHandle.readers } := by
  unfold releaseHandle
  split
  · rename_i none
    rw [← none]
  · rfl

theorem releaseHandleReaders {c : Connection} (known : ∀ n ∈ c.readers, c.handle = some n) :
    c.releaseHandle.readers = [] := by
  unfold releaseHandle
  split
  · rename_i none
    apply List.eq_nil_iff_forall_not_mem.mpr
    intro n mem
    simp [known n mem] at none
  · rename_i stream handle
    apply List.filter_eq_nil_iff.mpr
    intro n mem
    have same := known n mem
    simp_all

theorem acceptKeeps (c : Connection) : c.accept = { c with
    connecting := none
    streams := c.streams + 1
    handle := some (c.streams + 1)
    readers := c.accept.readers } := by
  unfold accept
  dsimp only
  rw [releaseHandleKeeps]

theorem leaveKeeps (c : Connection) (number : Nat) : c.leave number = { c with
    phase := .closing
    course := (c.enter .closing).course
    handle := none
    readers := (c.leave number).readers
    closings := c.closings ++ [number]
    closes := c.closes + 1 } := by
  unfold leave
  dsimp only
  rw [releaseHandleKeeps, enterKeeps]

theorem acceptReaders {c : Connection} (known : ∀ n ∈ c.readers, c.handle = some n) :
    c.accept.readers = [c.streams + 1] := by
  let dialled := { c with connecting := none, streams := c.streams + 1 }
  have released : dialled.releaseHandle.readers = [] := releaseHandleReaders known
  change dialled.releaseHandle.readers ++ [c.streams + 1] = _
  rw [released, List.nil_append]

theorem leaveReaders {c : Connection} (known : ∀ n ∈ c.readers, c.handle = some n) (number : Nat) :
    (c.leave number).readers = [] := by
  change (c.enter .closing).releaseHandle.readers = []
  exact releaseHandleReaders (by simpa using known)

def ups (c : Connection) : Nat := c.course.count .connected

theorem enterUps (c : Connection) {next : Phase} (other : next ≠ .connected) :
    (c.enter next).ups = c.ups := by
  unfold ups enter
  split
  · rfl
  · rw [List.count_append, List.count_singleton]
    simp [other]

theorem dialUps (c : Connection) (number : Nat) : (c.dial number).ups = c.ups := enterUps c nofun

theorem refuseUps (c : Connection) : c.refuse.ups = c.ups := enterUps { c with connecting := none } nofun

theorem acceptUps (c : Connection) : c.accept.ups = c.ups := by
  rw [acceptKeeps]
  rfl

theorem leaveUps (c : Connection) (number : Nat) : (c.leave number).ups = c.ups := by
  rw [leaveKeeps]
  exact enterUps c nofun

theorem leftUps (c : Connection) (number : Nat) : (c.left number).ups = c.ups :=
  enterUps { c with closings := c.closings.erase number } nofun

/-- `orphaned` is what a crashed filter leaves behind: an active connection that nobody reads. -/
inductive Stage (c : Connection) : Prop where
  | down (phase : c.phase = .closed) (readers : c.readers = []) (free : c.connecting = none)
      (closings : c.closings = [])
  | dialling (phase : c.phase = .opening) (readers : c.readers = []) (connecting : c.connecting.isSome)
      (closings : c.closings = [])
  | attended (active : c.phase.active) (readers : c.readers = [c.streams])
      (handle : c.handle = some c.streams) (free : c.connecting = none) (closings : c.closings = [])
  | orphaned (active : c.phase.active) (readers : c.readers = []) (crashed : c.streams ∈ c.crashes)
      (free : c.connecting = none) (closings : c.closings = [])
  | leaving (phase : c.phase = .closing) (readers : c.readers = []) (free : c.connecting = none)
      (number : Nat) (closings : c.closings = [number])

theorem Stage.held {c : Connection} (stage : c.Stage) : ∀ n ∈ c.readers, c.handle = some n := by
  cases stage with
  | attended _ readers handle => simp [readers, handle]
  | down _ readers | dialling _ readers | orphaned _ readers | leaving _ readers => simp [readers]

theorem Stage.read {c : Connection} (stage : c.Stage) {stream : Nat} (reader : stream ∈ c.readers) :
    stream = c.streams ∧ c.phase.active ∧ c.readers = [c.streams] ∧ c.handle = some c.streams ∧
      c.connecting = none ∧ c.closings = [] := by
  cases stage with
  | attended active readers handle free closings =>
    exact ⟨by simpa [readers] using reader, active, readers, handle, free, closings⟩
  | down _ readers | dialling _ readers | orphaned _ readers | leaving _ readers =>
    simp [readers] at reader

theorem Stage.dialled {c : Connection} (stage : c.Stage) (connecting : c.connecting.isSome) :
    c.phase = .opening ∧ c.readers = [] ∧ c.closings = [] := by
  cases stage with
  | dialling phase readers _ closings => exact ⟨phase, readers, closings⟩
  | down _ _ free | leaving _ _ free | attended _ _ _ free | orphaned _ _ _ free =>
    simp [free] at connecting

theorem Stage.closed {c : Connection} (stage : c.Stage) (closings : c.closings ≠ []) :
    c.phase = .closing := by
  cases stage with
  | leaving phase => exact phase
  | down _ _ _ none | dialling _ _ _ none | attended _ _ _ _ none | orphaned _ _ _ _ none =>
    exact (closings none).elim

theorem Stage.move {c d : Connection} (stage : c.Stage) (moved : Moves c d) : d.Stage := by
  cases moved with
  | establish reader opening =>
    obtain ⟨_, _, readers, handle, free, closings⟩ := stage.read reader
    exact .attended (by simp [Phase.active]) (by simpa using readers) (by simpa using handle)
      (by simpa using free) (by simpa using closings)
  | crash reader active =>
    obtain ⟨rfl, _, readers, _, free, closings⟩ := stage.read reader
    exact .orphaned active (by simp [release, readers]) (by simp [release]) free closings
  | lose reader =>
    obtain ⟨rfl, _, readers, _, free, closings⟩ := stage.read reader
    exact .down (by simp [release]) (by simp [release, readers]) (by simpa [release] using free)
      (by simpa [release] using closings)
  | fade reader passive =>
    obtain ⟨_, active, _⟩ := stage.read reader
    simp [passive] at active
  | dial number free down =>
    cases stage with
    | down _ readers _ closings =>
      exact .dialling (by simp [dial]) (by simpa [dial] using readers) rfl (by simpa [dial] using closings)
    | dialling phase | leaving phase => simp [down] at phase
    | attended active | orphaned active => simp [down, Phase.active] at active
  | refuse connecting =>
    cases stage with
    | dialling _ readers _ closings =>
      exact .down (by simp [refuse]) (by simpa [refuse] using readers) (by simp [refuse])
        (by simpa [refuse] using closings)
    | down _ _ free | leaving _ _ free | attended _ _ _ free | orphaned _ _ _ free =>
      simp [free] at connecting
  | accept connecting =>
    cases stage with
    | dialling phase readers _ closings =>
      rw [acceptKeeps, acceptReaders (by simp [readers])]
      exact .attended (by simp [phase, Phase.active]) rfl rfl rfl closings
    | down _ _ free | leaving _ _ free | attended _ _ _ free | orphaned _ _ _ free =>
      simp [free] at connecting
  | leave number free active =>
    have closings : c.closings = [] := by
      cases stage with
      | down _ _ _ closings | dialling _ _ _ closings | attended _ _ _ _ closings
      | orphaned _ _ _ _ closings => exact closings
      | leaving phase => simp [phase, Phase.active] at active
    rw [leaveKeeps, leaveReaders stage.held]
    exact .leaving rfl rfl free number (by simp [closings])
  | left inside =>
    cases stage with
    | leaving _ readers free _ closings =>
      exact .down (by simp [Connection.left]) (by simpa [Connection.left] using readers)
        (by simpa [Connection.left] using free) (by simp_all [Connection.left])
    | down _ _ _ closings | dialling _ _ _ closings | attended _ _ _ _ closings
    | orphaned _ _ _ _ closings => simp [closings] at inside

theorem Stage.path {c d : Connection} (stage : c.Stage) (path : Path c d) : d.Stage := by
  induction path with
  | refl => exact stage
  | tail _ last ih => exact ih.move last

end AccountWatch.Connection
