import AccountWatch.Proofs.Service.Soundness

/-! Who reads a connection. A call that waits inside the transport's opening keeps the connection to itself: it
is opening then and nobody reads it yet, since there is no stream. At all other times an active connection has
its one reader, unless a filter crashed on a frame of it. -/
namespace AccountWatch

theorem Connection.Stage.crashes {c d : Connection} (stage : c.Stage) (known : ∀ n ∈ c.crashes, n ≤ c.streams)
    (moved : Connection.Moves c d) : ∀ n ∈ d.crashes, n ≤ d.streams := by
  cases moved with
  | crash reader =>
    have latest := (stage.read reader).1
    intro n mem
    rcases List.mem_append.mp mem with old | new
    · exact known n old
    · rw [List.mem_singleton.mp new, latest]
      exact Nat.le_refl _
  | accept =>
    rw [acceptKeeps]
    intro n mem
    exact Nat.le_succ_of_le (known n mem)
  | leave =>
    rw [leaveKeeps]
    exact known
  | establish | lose | fade | dial | refuse | left => simpa [release, dial, refuse, Connection.left] using known

namespace Connection

theorem Stage.crashed {c d : Connection} (stage : c.Stage) (known : ∀ n ∈ c.crashes, n ≤ c.streams)
    (path : Path c d) : ∀ n ∈ d.crashes, n ≤ d.streams := by
  induction path with
  | refl => exact known
  | tail earlier last ih => exact (stage.path earlier).crashes ih last

theorem Stage.single {c : Connection} (stage : c.Stage) : c.readers.length ≤ 1 := by
  cases stage with
  | attended _ one => simp [one]
  | down _ none | dialling _ none | orphaned _ none | leaving _ none => simp [none]

theorem Stage.unread {c : Connection} (stage : c.Stage) (active : c.phase.active) (readers : c.readers = []) :
    c.streams ∈ c.crashes ∨ c.connecting.isSome := by
  cases stage with
  | orphaned _ _ crashed => exact .inl crashed
  | attended _ one => simp [one] at readers
  | dialling _ _ connecting => exact .inr connecting
  | down phase | leaving phase => simp [phase, Phase.active] at active

theorem Stage.closing {c : Connection} (stage : c.Stage) :
    (c.phase = .closing ↔ c.closings.length = 1) ∧ c.closings.length ≤ 1 := by
  cases stage with
  | leaving phase _ _ _ closings => simp [phase, closings]
  | down phase _ _ closings | dialling phase _ _ closings => simp [phase, closings]
  | attended active _ _ _ closings | orphaned active _ _ _ closings =>
    have passing : c.phase ≠ .closing := by
      intro phase
      simp [phase, Phase.active] at active
    simp [passing, closings]

end Connection

namespace Service

/-- At most one listener, of the stream that was opened last, and only while the connection is active. Conversely an
active connection is read, or a filter crashed on one of its frames, or its opening waits inside the transport.
It is closing exactly while one call waits inside the transport's closing. -/
theorem oneReader (account : Option Address) (currency : String) (fallback : UInt64) (inputs : List Input) :
    let s := (start account currency fallback).run inputs
    s.listeners.length ≤ 1 ∧
      (∀ t ∈ s.listeners, t.stream = s.transport.streams ∧ s.phase.active) ∧
      (∀ b ∈ s.bursts, ∀ stream, b.caller = .listener stream → ∃ t ∈ s.listeners, t.stream = stream) ∧
      (s.phase.active → s.listeners ≠ [] ∨ s.transport.streams ∈ s.crashes ∨ s.connecting.isSome) ∧
      (∀ stream ∈ s.crashes, stream ≤ s.transport.streams) ∧
      (s.connecting.isSome → s.phase = .opening ∧ s.listeners = [] ∧ s.closings = []) ∧
      (s.phase = .closing ↔ s.closings.length = 1) ∧ s.closings.length ≤ 1 := by
  intro s
  have sound : s.Sound := runSound (startSound account currency fallback) inputs
  have crashes : ∀ stream ∈ s.crashes, stream ≤ s.transport.streams :=
    (startSound account currency fallback).stage.crashed nofun (runPath (startSound _ _ _) inputs)
  have tied (b : Burst) (mem : b ∈ s.bursts) (stream : Nat) (same : b.caller = .listener stream) :
      ∃ t ∈ s.listeners, t.stream = stream :=
    List.mem_map.mp (sound.tied b mem stream same).1
  have reads (t : Listener) (mem : t ∈ s.listeners) : t.stream = s.transport.streams ∧ s.phase.active := by
    have reader : t.stream ∈ s.connection.readers := List.mem_map.mpr ⟨t, mem, rfl⟩
    obtain ⟨latest, active, _⟩ := sound.stage.read reader
    exact ⟨latest, active⟩
  have single : s.listeners.length ≤ 1 := by
    have one := sound.stage.single
    rwa [connection, List.length_map] at one
  have unread (active : s.phase.active) :
      s.listeners ≠ [] ∨ s.transport.streams ∈ s.crashes ∨ s.connecting.isSome := by
    by_cases none : s.listeners = []
    · exact .inr (sound.stage.unread active (List.map_eq_nil_iff.mpr none))
    · exact .inl none
  have dialling (waits : s.connecting.isSome) : s.phase = .opening ∧ s.listeners = [] ∧ s.closings = [] := by
    obtain ⟨phase, readers, closings⟩ := sound.stage.dialled waits
    exact ⟨phase, List.map_eq_nil_iff.mp readers, closings⟩
  exact ⟨single, reads, tied, unread, crashes, dialling, sound.stage.closing⟩

theorem unreadWhileOpening :
    let s := (start none "USD" 10).run [.holdOpen, .openUp]
    (s.phase = .opening ∧ s.connecting = some 1 ∧ s.listeners = [] ∧ s.crashes = []) ∧
      ¬ ∀ (account : Option Address) (currency : String) (fallback : UInt64) (inputs : List Input),
        let s := (start account currency fallback).run inputs
        s.phase.active → s.listeners ≠ [] ∨ s.transport.streams ∈ s.crashes := by
  intro s
  have reached : s.phase = .opening ∧ s.connecting = some 1 ∧ s.listeners = [] ∧ s.crashes = [] := by
    decide +kernel
  refine ⟨reached, fun always => ?_⟩
  obtain ⟨phase, _, unread, calm⟩ := reached
  have active : s.phase.active := by rw [phase]; rfl
  rcases always none "USD" 10 [.holdOpen, .openUp] active with read | crashed
  · exact read unread
  · change s.transport.streams ∈ s.crashes at crashed
    rw [calm] at crashed
    cases crashed

end Service
end AccountWatch
