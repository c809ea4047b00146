import Rathole.Server.Interleaving

/-!
# Who is a visitor?

A visitor says no name: it is the first user, in the order of the map, whose
token answers the challenge. Two users with one token, or without one, both
answer it, and which of them the visitor is decides what it may bind and under
whose name its channel is registered. The names of a hash map come in another
order after every restart.
-/

namespace Rathole.Server

/-- The `VisitorAck` that is sent after a `VisitorAuth`, and the user under
whom the channel is then registered. -/
def Pc.visitorAnswer : Pc → Option (VisitorAck × Option String)
  | .sendRefusal ack _ => some (ack, none)
  | .sendVisitorOk v => some (.ok, (visitorService v).user)
  | _ => none

section

variable (digest : Bytes → Digest) (config : ServerConfig)
  (nonce : Nonce) (auth : VisitorAuth) (sessionNonce : Nonce)

/-- The answer to a `VisitorAuth` under the challenge `nonce`. -/
def admission : Option (VisitorAck × Option String) :=
  (receive digest config ⟨.readVisitorAuth nonce, [], none⟩ (.visitorAuth auth)
    sessionNonce).bind (fun conn => conn.pc.visitorAnswer)

/-- The user's token answers the challenge. -/
def Answers (name : String) (user : UserConfig) : Prop :=
  config.users.lookup name = some user ∧
    digest (challenge user.token nonce) = auth.tokenDigest

/-- The answer, once the visitor is taken for a user. -/
def answerAs (name : String) (user : UserConfig) : VisitorAck × Option String :=
  match SocketAddr.parse auth.bindAddr with
  | none => (.bindError, none)
  | some addr =>
      if isPortAllowed user.allowedPorts addr.port then (.ok, some name)
      else (.portDenied, none)

variable {digest config nonce auth sessionNonce}

theorem admission_eq : admission digest config nonce auth sessionNonce =
    some (match config.users.entries.find? (fun u =>
        decide (digest (challenge u.2.token nonce) = auth.tokenDigest)) with
      | none => (.authFailed, none)
      | some u => answerAs auth u.1 u.2) := by
  unfold admission receive readVisitorAuth checkVisitor answerAs
  dsimp only
  cases config.users.entries.find? (fun u =>
      decide (digest (challenge u.2.token nonce) = auth.tokenDigest)) with
  | none => rfl
  | some u =>
      dsimp only
      cases SocketAddr.parse auth.bindAddr with
      | none => rfl
      | some addr =>
          dsimp only
          by_cases hport : isPortAllowed u.2.allowedPorts addr.port = true
          · rw [if_pos hport, if_pos hport]
            rfl
          · rw [if_neg hport, if_neg hport]
            rfl

variable (digest config nonce auth sessionNonce)

/-- The answer is that to some user whose token answers. -/
theorem admission_cases :
    (admission digest config nonce auth sessionNonce =
        some (.authFailed, none) ∧
      ∀ name user, ¬ Answers digest config nonce auth name user) ∨
    ∃ name user, Answers digest config nonce auth name user ∧
      admission digest config nonce auth sessionNonce =
        some (answerAs auth name user) := by
  rw [admission_eq]
  cases hfind : config.users.entries.find? (fun u =>
      decide (digest (challenge u.2.token nonce) = auth.tokenDigest)) with
  | none =>
      left
      refine ⟨rfl, ?_⟩
      rintro name user ⟨hlookup, hdigest⟩
      have hnot := List.find?_eq_none.mp hfind ⟨name, user⟩
        (HashMap.mem_entries_iff.mpr hlookup)
      exact hnot (decide_eq_true hdigest)
  | some u =>
      right
      have hdigest := List.find?_some hfind
      refine ⟨u.1, u.2, ⟨?_, of_decide_eq_true hdigest⟩, rfl⟩
      exact HashMap.mem_entries_iff.mp (List.mem_of_find?_eq_some hfind)

variable {digest config nonce auth}

/-- In some order of the map the visitor is taken for any given user whose
token answers. -/
theorem exists_order {name : String} {user : UserConfig}
    (h : Answers digest config nonce auth name user) :
    ∃ users, HashMap.SameMap config.users users ∧
      admission digest { config with users := users } nonce auth sessionNonce =
        some (answerAs auth name user) := by
  refine ⟨AList.insert name user config.users, ?_, ?_⟩
  · intro k
    by_cases hk : k = name
    · rw [hk, AList.lookup_insert]
      exact h.1
    · rw [AList.lookup_insert_ne hk]
  · rw [admission_eq]
    have hfirst : (AList.insert name user config.users).entries.find? (fun u =>
        decide (digest (challenge u.2.token nonce) = auth.tokenDigest)) =
          some ⟨name, user⟩ := by
      rw [AList.entries_insert]
      exact List.find?_cons_of_pos (decide_eq_true h.2)
    rw [hfirst]

/-- Which user the visitor is taken for makes no difference. -/
def OneAnswer (digest : Bytes → Digest) (config : ServerConfig) (nonce : Nonce)
    (auth : VisitorAuth) : Prop :=
  SocketAddr.parse auth.bindAddr = none ∨
    (∀ addr name user, SocketAddr.parse auth.bindAddr = some addr →
      Answers digest config nonce auth name user →
        isPortAllowed user.allowedPorts addr.port = false) ∨
    ∀ name user name' user', Answers digest config nonce auth name user →
      Answers digest config nonce auth name' user' → name = name'

theorem OneAnswer.answerAs_eq (h : OneAnswer digest config nonce auth)
    {name name' : String} {user user' : UserConfig}
    (ha : Answers digest config nonce auth name user)
    (ha' : Answers digest config nonce auth name' user') :
    answerAs auth name user = answerAs auth name' user' := by
  rcases h with hparse | hdenied | hone
  · unfold answerAs
    rw [hparse]
  · unfold answerAs
    cases haddr : SocketAddr.parse auth.bindAddr with
    | none => rfl
    | some addr =>
        dsimp only
        rw [hdenied addr name user haddr ha, hdenied addr name' user' haddr ha']
        rfl
  · obtain rfl := hone name user name' user' ha ha'
    have hsame := ha.1.symm.trans ha'.1
    injection hsame with hsame
    rw [hsame]

theorem answerAs_granted {addr : SocketAddr} {name : String} {user : UserConfig}
    (haddr : SocketAddr.parse auth.bindAddr = some addr)
    (hport : isPortAllowed user.allowedPorts addr.port = true) :
    answerAs auth name user = (.ok, some name) := by
  unfold answerAs
  rw [haddr]
  exact if_pos hport

/-- Who is let in is let in under his own name. -/
theorem name_of_answerAs {name name' : String} {user : UserConfig}
    (h : answerAs auth name user = (.ok, some name')) : name = name' := by
  unfold answerAs at h
  split at h
  · cases h
  · split at h
    · cases h
      rfl
    · cases h

/-- **Admission does not depend on the order of the users** exactly when the
address is none, or nobody whose token answers may bind the port, or one
user's token answers at most. -/
theorem admission_order_iff (digest : Bytes → Digest) (config : ServerConfig)
    (nonce : Nonce) (auth : VisitorAuth) (sessionNonce : Nonce) :
    (∀ users, HashMap.SameMap config.users users →
      admission digest { config with users := users } nonce auth sessionNonce =
        admission digest config nonce auth sessionNonce) ↔
    OneAnswer digest config nonce auth := by
  constructor
  · intro hsame
    by_contra hnot
    simp only [OneAnswer, not_or, not_forall, Bool.not_eq_false] at hnot
    obtain ⟨hparse, ⟨addr, name, user, haddr, hanswers, hport⟩,
      name₁, user₁, name₂, user₂, h₁, h₂, hne⟩ := hnot
    -- of two users one is not the one who may bind the port
    obtain ⟨name', user', hanswers', hne'⟩ : ∃ name' user',
        Answers digest config nonce auth name' user' ∧ name' ≠ name := by
      by_cases hname : name₁ = name
      · exact ⟨name₂, user₂, h₂, fun heq => hne (hname.trans heq.symm)⟩
      · exact ⟨name₁, user₁, h₁, hname⟩
    obtain ⟨users, hperm, hfirst⟩ := exists_order sessionNonce hanswers
    obtain ⟨users', hperm', hfirst'⟩ := exists_order sessionNonce hanswers'
    rw [hsame users hperm] at hfirst
    rw [hsame users' hperm', hfirst] at hfirst'
    rw [answerAs_granted haddr hport] at hfirst'
    exact hne' (name_of_answerAs (Option.some.inj hfirst').symm)
  · intro hone users hperm
    have hanswers : ∀ name user,
        Answers digest { config with users := users } nonce auth name user ↔
          Answers digest config nonce auth name user := by
      intro name user
      unfold Answers
      rw [hperm name]
    rcases admission_cases digest config nonce auth sessionNonce with
      ⟨heq, hnobody⟩ | ⟨name, user, ha, heq⟩
    · rcases admission_cases digest { config with users := users } nonce auth
          sessionNonce with ⟨heq', -⟩ | ⟨name', user', ha', -⟩
      · rw [heq, heq']
      · exact absurd ((hanswers name' user').mp ha') (hnobody name' user')
    · rcases admission_cases digest { config with users := users } nonce auth
          sessionNonce with ⟨-, hnobody⟩ | ⟨name', user', ha', heq'⟩
      · exact absurd ((hanswers name user).mpr ha) (hnobody name user)
      · rw [heq, heq', hone.answerAs_eq ha ((hanswers name' user').mp ha')]

end

def alicePorts : UserConfig := ⟨some "alice-token", "2000-3000"⟩

def bobPorts : UserConfig := ⟨some "alice-token", "4000-5000"⟩

/-- Alice and Bob have one token and different ports. -/
def sharedToken : ServerConfig :=
  { sampleConfig with
    users := AList.insert "alice" alicePorts (AList.singleton "bob" bobPorts) }

def bobFirst : HashMap String UserConfig :=
  AList.insert "bob" bobPorts (AList.singleton "alice" alicePorts)

/-- Whoever has the token, under a challenge of ones, asks for port 2500. -/
def askFor2500 : VisitorAuth :=
  ⟨sampleDigest (challenge (some "alice-token") ones), "0.0.0.0:2500", .tcp⟩

/-- Alice's port is granted or denied as the map has it. -/
theorem admission_by_order :
    validateServerConfig sharedToken = .ok sharedToken ∧
    HashMap.SameMap sharedToken.users bobFirst ∧
    admission sampleDigest sharedToken ones askFor2500 zeros =
      some (.ok, some "alice") ∧
    admission sampleDigest { sharedToken with users := bobFirst } ones
      askFor2500 zeros = some (.portDenied, none) := by
  refine ⟨rfl, ?_, by decide, by decide⟩
  apply HashMap.sameMap_of_perm
  exact List.Perm.swap _ _ _

end Rathole.Server
