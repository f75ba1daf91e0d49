import AccountWatch.Proofs.Uri.Reading
import AccountWatch.Socket.Basic

/-! Endpoints, told by their text. A socket transport is made of a text exactly if it is a resource identifier of one of
two schemes, in lower case, with a host. Its address is that text, and everything else is refused for a reason that the
text shows. -/
namespace AccountWatch

namespace Uri

def IsUser (user : List Char) : Prop := user = [] ∨ ∃ name, user = name ++ ['@']

/-- The host of an authority, behind the last `@`. In brackets it may hold colons, else it ends before the first. -/
inductive HostIn : List Char → List Char → Prop where
  | plain {user host port : List Char} (info : IsUser user) (last : '@' ∉ host ++ port) (bare : host.head? ≠ some '[')
      (name : ':' ∉ host) (behind : ∀ c ∈ port.head?, c = ':') : HostIn (user ++ (host ++ port)) host
  | bracketed {user inner rest : List Char} (info : IsUser user) (last : '@' ∉ '[' :: inner ++ ']' :: rest)
      (closed : ']' ∉ inner) : HostIn (user ++ ('[' :: inner ++ ']' :: rest)) ('[' :: inner ++ [']'])

theorem hostPortBehind {user rest : List Char} (info : IsUser user) (last : '@' ∉ rest) :
    ((user ++ rest).reverse.takeWhile (· ≠ '@')).reverse = rest := by
  have other : ∀ c ∈ rest.reverse, decide (c ≠ '@') :=
    fun c mem => decide_eq_true fun same => last (List.mem_reverse.mp (same ▸ mem))
  have stops : ∀ c ∈ user.reverse.head?, decide (c ≠ '@') = false := by
    rcases info with rfl | ⟨name, rfl⟩ <;> simp
  rw [List.reverse_append, (Text.takeRun other stops).1, List.reverse_reverse]

theorem HostIn.found {authority host : List Char} (has : HostIn authority host) (scheme : Option (List Char)) :
    (Uri.mk scheme authority).host = host := by
  unfold Uri.host
  dsimp only
  cases has with
  | @plain user host port info last bare name behind =>
    have first : (host ++ port).head? ≠ some '[' := by
      cases host with
      | nil => exact fun first => nomatch behind '[' first
      | cons c more => exact bare
    have before : ∀ c ∈ host, decide (c ≠ ':') := fun c mem => decide_eq_true fun same => name (same ▸ mem)
    have stops : ∀ c ∈ port.head?, decide (c ≠ ':') = false := fun c first => by simpa using behind c first
    rw [hostPortBehind info last, if_neg first]
    exact (Text.takeRun before stops).1
  | @bracketed user inner rest info last closed =>
    have first : ('[' :: inner ++ ']' :: rest).head? = some '[' := rfl
    have before : ∀ c ∈ '[' :: inner, decide (c ≠ ']') :=
      List.forall_mem_cons.mpr ⟨by decide, fun c mem => decide_eq_true fun same => closed (same ▸ mem)⟩
    have stops : ∀ c ∈ (']' :: rest).head?, decide (c ≠ ']') = false := fun c first => by cases first; rfl
    rw [hostPortBehind info last, if_pos first, (Text.takeRun before stops).1]

theorem userSplit (authority : List Char) : ∃ user rest, authority = user ++ rest ∧ IsUser user ∧ '@' ∉ rest := by
  let part (c : Char) : Bool := c ≠ '@'
  refine ⟨authority.rdropWhile part, authority.rtakeWhile part, List.rdropWhile_append_rtakeWhile.symm, ?_,
    fun mem => ?_⟩
  · by_cases empty : authority.rdropWhile part = []
    · exact .inl empty
    · have mark := List.rdropWhile_last_not part authority empty
      refine .inr ⟨(authority.rdropWhile part).dropLast, ?_⟩
      have last : (authority.rdropWhile part).getLast empty = '@' := by simpa [part] using mark
      rw [← last, List.dropLast_append_getLast]
  · simpa [part] using List.mem_rtakeWhile_imp mem

theorem hostThere {authority : List Char} (lawful : IsAuthority authority) : ∃ host, HostIn authority host := by
  obtain ⟨user, rest, rfl, info, last⟩ := userSplit authority
  by_cases bare : rest.head? = some '['
  · obtain ⟨more, rfl⟩ := List.head?_eq_some_iff.mp bare
    obtain ⟨inner, behind, rfl, closed⟩ := List.eq_append_cons_of_mem lawful.closes
    exact ⟨_, .bracketed info last closed⟩
  · have split := Text.splitRun (· ≠ ':') rest
    rw [split] at last bare ⊢
    refine ⟨_, .plain info last (fun first => bare ?_) (fun mem => ?_) (fun c first => ?_)⟩
    · rw [List.head?_append, first]
      rfl
    · simpa using List.mem_takeWhile_imp mem
    · simpa using Text.runStops _ rest c first

theorem hostIff {authority host : List Char} (lawful : IsAuthority authority) (scheme : Option (List Char)) :
    HostIn authority host ↔ (Uri.mk scheme authority).host = host := by
  constructor
  · exact fun has => has.found scheme
  · rintro rfl
    obtain ⟨host, has⟩ := hostThere lawful
    rwa [has.found scheme]

theorem Spells.parts {scheme authority s : List Char} (spelled : Spells ⟨some scheme, authority⟩ s) :
    ∃ written path, SpellsScheme scheme written ∧ IsAuthority authority ∧ authority ≠ [] ∧ IsPath path ∧
      s = written ++ ':' :: '/' :: '/' :: (authority ++ path) := by
  cases spelled with
  | absolute spelled lawful filled behind => exact ⟨_, _, spelled, lawful, filled, behind, rfl⟩

theorem SpellsScheme.kept {scheme written : List Char} (spelled : SpellsScheme scheme written)
    (other : ¬ (scheme = "http".toList ∨ scheme = "https".toList)) : written = scheme := by
  cases spelled with
  | web web => exact (other web).elim
  | other => rfl

end Uri

def NamesServer (s : List Char) : Prop :=
  ∃ u host, Uri.DenotedBy u s ∧ (u.scheme = some "ws".toList ∨ u.scheme = some "wss".toList) ∧
    Uri.HostIn u.authority host ∧ host ≠ []

inductive Refuses (s : List Char) : EndpointError → Prop where
  | notUri {cause : UriError} (other : ∀ u : Uri, ¬ u.DenotedBy s) : Refuses s (.notUri cause)
  | noScheme {u : Uri} (denoted : u.DenotedBy s) (absent : u.scheme = none) : Refuses s .noScheme
  | badScheme {u : Uri} {scheme : List Char} (denoted : u.DenotedBy s) (given : u.scheme = some scheme)
      (other : ¬ (scheme = "ws".toList ∨ scheme = "wss".toList)) : Refuses s (.badScheme (String.ofList scheme))
  | noHost {u : Uri} (denoted : u.DenotedBy s) (scheme : u.scheme = some "ws".toList ∨ u.scheme = some "wss".toList)
      (empty : Uri.HostIn u.authority []) : Refuses s .noHost

theorem Refuses.namesNone {s : List Char} {cause : EndpointError} (refused : Refuses s cause) : ¬ NamesServer s := by
  rintro ⟨u, host, denoted, scheme, has, filled⟩
  cases refused with
  | notUri other => exact other u denoted
  | noScheme known absent =>
    obtain rfl := denoted.unique known
    rw [absent] at scheme
    rcases scheme with same | same <;> cases same
  | badScheme known given other =>
    obtain rfl := denoted.unique known
    rw [given] at scheme
    exact other (scheme.imp Option.some.inj Option.some.inj)
  | noHost known _ empty =>
    obtain rfl := denoted.unique known
    exact filled ((has.found none).symm.trans (empty.found none))

theorem checkedCases (s : String) : (checkEndpoint s = .ok () ∧ NamesServer s.toList) ∨
    ∃ cause, checkEndpoint s = .error cause ∧ Refuses s.toList cause := by
  unfold checkEndpoint
  cases read : Uri.parse s.toList with
  | error cause =>
    exact .inr ⟨_, rfl, .notUri fun u denoted => nomatch read.symm.trans (Uri.parseIff.mpr denoted)⟩
  | ok u =>
    have denoted := Uri.parseIff.mp read
    obtain ⟨scheme, authority⟩ := u
    cases scheme with
    | none => exact .inr ⟨_, rfl, .noScheme denoted rfl⟩
    | some scheme =>
      dsimp only
      obtain ⟨_, _, _, lawful, _⟩ := denoted.spelled.parts
      have has := (Uri.hostIff lawful (some scheme)).mpr rfl
      split_ifs with known empty
      · rw [List.isEmpty_iff.mp empty] at has
        exact .inr ⟨_, rfl, .noHost denoted (known.imp (congrArg some) (congrArg some)) has⟩
      · exact .inl ⟨rfl, _, _, denoted, known.imp (congrArg some) (congrArg some), has, mt List.isEmpty_iff.mpr empty⟩
      · exact .inr ⟨_, rfl, .badScheme denoted rfl known⟩

theorem NamesServer.text {s : List Char} (server : NamesServer s) : ∃ scheme authority path,
    (scheme = "ws".toList ∨ scheme = "wss".toList) ∧ Uri.IsAuthority authority ∧ authority ≠ [] ∧ Uri.IsPath path ∧
      s = scheme ++ "://".toList ++ (authority ++ path) := by
  obtain ⟨⟨given, authority⟩, host, denoted, known, _⟩ := server
  obtain ⟨scheme, same, rfl⟩ : ∃ scheme, (scheme = "ws".toList ∨ scheme = "wss".toList) ∧ given = some scheme := by
    rcases known with same | same
    · exact ⟨_, .inl rfl, same⟩
    · exact ⟨_, .inr rfl, same⟩
  obtain ⟨written, path, spelled, lawful, filled, behind, rfl⟩ := denoted.spelled.parts
  have kept := spelled.kept (by rcases same with rfl | rfl <;> decide)
  refine ⟨scheme, authority, path, same, lawful, filled, behind, ?_⟩
  rw [kept, List.append_assoc]
  rfl

namespace Socket

theorem createdByText (s : String) : ((∃ t, create s = .ok t) ↔ NamesServer s.toList) ∧
    (∀ t, create s = .ok t → t = start s ∧ t.url = s ∧ ∃ scheme authority path,
      (scheme = "ws".toList ∨ scheme = "wss".toList) ∧ Uri.IsAuthority authority ∧ authority ≠ [] ∧ Uri.IsPath path ∧
        s.toList = scheme ++ "://".toList ++ (authority ++ path)) ∧
    (¬ NamesServer s.toList → ∃ cause, create s = .error cause ∧ Refuses s.toList cause) := by
  unfold create
  obtain ⟨checked, server⟩ | ⟨cause, checked, refused⟩ := checkedCases s
  · rw [checked]
    refine ⟨iff_of_true ⟨_, rfl⟩ server, fun t made => ?_, fun none => (none server).elim⟩
    obtain rfl := Except.ok.inj made
    exact ⟨rfl, rfl, server.text⟩
  · rw [checked]
    refine ⟨iff_of_false ?_ refused.namesNone, ?_, fun _ => ⟨cause, rfl, refused⟩⟩
    · rintro ⟨t, ⟨⟩⟩
    · rintro t ⟨⟩

theorem bracketedServer :
    let full := "wss://me:a:b@[::1]:9000/x?y#z"
    let bare := "wss://me@:9000"
    (NamesServer full.toList ∧ create full = .ok (start full)) ∧
      ¬ NamesServer bare.toList ∧ create bare = .error .noHost := by
  intro full bare
  have made : create full = .ok (start full) := by decide +kernel
  have refused : create bare = .error .noHost := by decide +kernel
  refine ⟨⟨(createdByText full).1.mp ⟨_, made⟩, made⟩, fun server => ?_, refused⟩
  obtain ⟨t, given⟩ := (createdByText bare).1.mpr server
  exact nomatch refused.symm.trans given

end Socket
end AccountWatch
