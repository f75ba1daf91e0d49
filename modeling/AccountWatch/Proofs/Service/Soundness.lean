import AccountWatch.Proofs.Service.Deeds

/-! What every state of a run keeps: the connection is at one of its stages, and a burst that waits for a listener
waits for one that reads a connection that is up. Each deed keeps that, so each single move does, so
each run. -/
namespace AccountWatch.Service
open Connection (Moves Path)

structure Sound (s : Service) : Prop where
  stage : s.connection.Stage
  tied : ∀ b ∈ s.bursts, ∀ stream, b.caller = .listener stream →
    stream ∈ s.connection.readers ∧ s.phase = .connected

theorem Sound.apart {s : Service} (sound : s.Sound) (apart : s.phase ≠ .connected) :
    ∀ b ∈ s.bursts, ∀ stream, b.caller ≠ .listener stream :=
  fun b mem stream same => apart (sound.tied b mem stream same).2

theorem Sound.ready {s : Service} (sound : s.Sound) {stream : Nat} (reader : stream ∈ s.connection.readers)
    (ready : s.suspended stream = false) : ∀ b ∈ s.bursts, ∀ other, b.caller ≠ .listener other := by
  intro b mem other same
  have latest := (sound.stage.read reader).1
  have otherLatest := (sound.stage.read (sound.tied b mem other same).1).1
  have waits : s.suspended stream = true := by
    refine List.any_eq_true.mpr ⟨b, mem, ?_⟩
    simp [same, latest, otherLatest]
  rw [ready] at waits
  cases waits

theorem Sound.passing {s : Service} (sound : s.Sound)
    (apart : s.phase = .closed ∨ s.phase = .opening ∨ s.closings ≠ []) : s.phase ≠ .connected := by
  rcases apart with down | opening | closings
  · simp [down]
  · simp [opening]
  · have closing := sound.stage.closed closings
    change s.phase = .closing at closing
    simp [closing]

theorem Sound.passed {s t : Service} (sound : s.Sound)
    (apart : s.phase = .closed ∨ s.phase = .opening ∨ s.closings ≠ [])
    (traffic : t.traffic = s.traffic ∨ t.traffic = s.traffic.abort s.handle) : t.traffic = s.traffic := by
  rcases traffic with same | dropped
  · exact same
  · rw [dropped]
    exact Traffic.abortIdle s.handle (sound.apart (sound.passing apart))

theorem startSound (account : Option Address) (currency : String) (fallback : UInt64) :
    (start account currency fallback).Sound := ⟨.down rfl rfl rfl rfl, nofun⟩

theorem Quiet.path {s t : Service} (quiet : Quiet s t) : Path s.connection t.connection := by
  cases quiet with
  | still connection | count connection => rw [connection]
  | pass _ moved => exact .single moved

theorem Quiet.sound {s t : Service} (sound : s.Sound) (quiet : Quiet s t) : t.Sound := by
  refine ⟨sound.stage.path quiet.path, ?_⟩
  intro b mem stream same
  cases quiet with
  | still connection traffic | count connection traffic =>
    have old : b ∈ s.bursts := by
      have bursts : t.bursts = s.bursts := congrArg Traffic.bursts traffic
      rwa [bursts] at mem
    obtain ⟨reader, up⟩ := sound.tied b old stream same
    have phase : t.phase = s.phase := congrArg Connection.phase connection
    exact ⟨connection ▸ reader, phase.trans up⟩
  | pass apart moved _ traffic =>
    have bursts : t.bursts = s.bursts := congrArg Traffic.bursts (sound.passed apart traffic)
    rw [bursts] at mem
    exact (sound.apart (sound.passing apart) b mem stream same).elim

theorem Quiets.path {s t : Service} (quiets : Quiets s t) : Path s.connection t.connection := by
  induction quiets with
  | refl => exact .refl
  | tail _ last ih => exact ih.trans last.path

theorem Quiets.sound {s t : Service} (sound : s.Sound) (quiets : Quiets s t) : t.Sound := by
  induction quiets with
  | refl => exact sound
  | tail _ last ih => exact last.sound ih

theorem Deed.path {s t : Service} (deed : Deed s t) : Path s.connection t.connection := by
  cases deed with
  | quiet quiet => exact quiet.path
  | answer _ _ connection => rw [connection]
  | establish stream reader _ opening connection =>
    rw [connection]
    exact .single (.establish reader opening)
  | detach _ _ _ moved => exact .single moved

theorem Deed.sound {s t : Service} (sound : s.Sound) (deed : Deed s t) : t.Sound := by
  refine ⟨sound.stage.path deed.path, ?_⟩
  intro b mem stream same
  cases deed with
  | quiet quiet => exact (quiet.sound sound).tied b mem stream same
  | answer waiting waits connection hands =>
    have phase : t.phase = s.phase := congrArg Connection.phase connection
    rcases hands.bursts mem with old | own
    · obtain ⟨reader, up⟩ := sound.tied b (List.mem_of_mem_eraseP old) stream same
      exact ⟨connection ▸ reader, phase.trans up⟩
    · obtain ⟨reader, up⟩ := sound.tied waiting waits stream (own ▸ same)
      exact ⟨connection ▸ reader, phase.trans up⟩
  | establish stream' reader ready opening connection hands =>
    have up : t.phase = .connected := by
      change t.connection.phase = .connected
      rw [connection]
      exact Connection.enterPhase _ _
    rcases hands.bursts mem with old | own
    · exact (sound.apart (by simp [opening]) b old stream same).elim
    · obtain rfl : stream' = stream := by simpa using own.symm.trans same
      rw [connection, Connection.enterReaders]
      exact ⟨reader, up⟩
  | detach stream' reader ready moved _ traffic =>
    have bursts : t.bursts = s.bursts := congrArg Traffic.bursts traffic
    rw [bursts] at mem
    exact (sound.ready reader ready b mem stream same).elim

theorem Asks.sound {s t : Service} (sound : s.Sound) (asks : Asks s t) : t.Sound := by
  refine ⟨asks.connection ▸ sound.stage, ?_⟩
  intro b mem stream same
  rcases asks.hands.bursts mem with old | own
  · have phase : t.phase = s.phase := congrArg Connection.phase asks.connection
    obtain ⟨reader, up⟩ := sound.tied b old stream same
    exact ⟨asks.connection ▸ reader, phase.trans up⟩
  · cases own.symm.trans same

theorem Leaves.path {s t : Service} (leaves : Leaves s t) : Path s.connection t.connection := by
  have active : s.connection.phase.active := by
    change s.phase.active
    rw [leaves.up]
    rfl
  rw [leaves.connection]
  exact .single (.leave _ leaves.free active)

theorem Leaves.idle {s t : Service} (sound : s.Sound) (leaves : Leaves s t) :
    ∀ b ∈ t.bursts, ∀ stream, b.caller ≠ .listener stream := by
  intro b mem stream same
  have dropped : b ∈ (s.traffic.count.abort s.handle).bursts := by
    rw [← leaves.traffic]
    exact mem
  obtain ⟨old, other⟩ := Traffic.abortBursts dropped
  have reader := (sound.tied b old stream same).1
  exact other stream (sound.stage.held stream reader) same

theorem Leaves.sound {s t : Service} (sound : s.Sound) (leaves : Leaves s t) : t.Sound :=
  ⟨sound.stage.path leaves.path, fun b mem stream same => (leaves.idle sound b mem stream same).elim⟩

theorem Effect.path {s t : Service} {i : Input} (effect : Effect s i t) :
    Path s.connection t.connection := by
  cases effect with
  | quiet _ quiets => exact quiets.path
  | deed _ deed => exact deed.path
  | asks asks => rw [asks.connection]
  | leaves leaves quiets => exact leaves.path.trans quiets.path

theorem Effect.sound {s t : Service} {i : Input} (sound : s.Sound) (effect : Effect s i t) : t.Sound := by
  cases effect with
  | quiet _ quiets => exact quiets.sound sound
  | deed _ deed => exact deed.sound sound
  | asks asks => exact asks.sound sound
  | leaves leaves quiets => exact quiets.sound (leaves.sound sound)

theorem movesSound {s : Service} (sound : s.Sound) {moves : List Input} (single : ∀ i ∈ moves, i.Single) :
    (s.run moves).Sound ∧ Path s.connection (s.run moves).connection := by
  induction moves generalizing s with
  | nil => exact ⟨sound, .refl⟩
  | cons i rest ih =>
    have effect := moveEffect sound.stage (single i List.mem_cons_self)
    obtain ⟨later, path⟩ := ih (effect.sound sound) fun j mem => single j (List.mem_cons_of_mem i mem)
    exact ⟨later, effect.path.trans path⟩

theorem runSound {s : Service} (sound : s.Sound) (inputs : List Input) : (s.run inputs).Sound := by
  obtain ⟨moves, unwinds⟩ := unwound s inputs
  exact unwinds.reaches ▸ (movesSound sound unwinds.singles).1

theorem runPath {s : Service} (sound : s.Sound) (inputs : List Input) :
    Path s.connection (s.run inputs).connection := by
  obtain ⟨moves, unwinds⟩ := unwound s inputs
  exact unwinds.reaches ▸ (movesSound sound unwinds.singles).2

end AccountWatch.Service
