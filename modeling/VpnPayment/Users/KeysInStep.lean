import VpnPayment.Collections.SecondaryIndex
import VpnPayment.Users.Service

/-! API keys and emails stay in step with the stored users, however the calls of the
service interleave. -/
namespace VpnPayment

open Async Collections

variable {letters : LetterCase} {verifyPassword : String → String → Bool} {audit : Bool}

/-- Both maps point to the stored users. Emails are in lower case, and ids are not empty. -/
structure UserStore.InStep (letters : LetterCase) (s : UserStore) : Prop where
  keys : Indexes s.byId s.byApiKey User.apiKey
  emails : Indexes s.byId s.byEmail User.email
  lower : ∀ id user, s.byId.get? id = some user → letters.toLowerCase user.email = user.email
  named : ∀ id user, s.byId.get? id = some user → id ≠ ""

section store

variable {s s' : UserStore} {x saved user : User} {k : String}

theorem inStep_empty : UserStore.InStep letters .empty where
  keys := indexes_empty
  emails := indexes_empty
  lower id user hUser := by cases hUser
  named id user hUser := by cases hUser

/-- A lookup that takes an empty id for none finds what the index points to. -/
theorem truthy_lookup {index : Index} (hNamed : ∀ i, index.get? k = some (k, i) → i ≠ "")
    {α : Type} (f : String → Option α) :
    (truthy ((index.get? k).map Prod.snd)).bind f = (index.get? k).bind fun entry => f entry.2 := by
  cases hEntry : index.get? k with
  | none => rfl
  | some entry =>
      obtain rfl : entry.1 = k := Table.key_of_get? hEntry
      have hNe : decide (entry.2 ≠ "") = true := decide_eq_true (hNamed entry.2 hEntry)
      rw [Option.map_some, truthy, Option.filter_some, if_pos hNe]
      rfl

/-- A lookup by key answers the stored user with the key. -/
theorem UserStore.InStep.findByApiKey (h : s.InStep letters) :
    MemoryUserRepository.findByApiKey s k = some user ↔
      s.byId.get? user.id = some user ∧ user.apiKey = k := by
  rw [MemoryUserRepository.findByApiKey, truthy_lookup]
  · change (s.byApiKey.get? k).bind (fun entry => s.byId.get? entry.2) = _ ↔ _
    rw [h.keys.lookup]
    constructor
    · intro hFound
      obtain ⟨i, hRow, hKey⟩ := hFound
      obtain rfl : user.id = i := Table.key_of_get? hRow
      exact ⟨hRow, hKey⟩
    · intro hFound
      exact ⟨user.id, hFound⟩
  · intro i hEntry
    obtain ⟨row, hRow, -⟩ := (h.keys k i).mp hEntry
    exact h.named i row hRow

/-- A successful insertion stores the user under an address that was free, and under the key. -/
theorem create_ok (h : MemoryUserRepository.create letters s x = .ok (saved, s')) :
    saved = { x with email := letters.toLowerCase x.email } ∧
      s.byEmail.get? (letters.toLowerCase x.email) = none ∧
      s' = ⟨s.byId.put saved, s.byEmail.put (saved.email, saved.id),
        s.byApiKey.put (saved.apiKey, saved.id)⟩ := by
  simp only [MemoryUserRepository.create] at h
  split at h
  · cases h
  · next hNew =>
      cases h
      exact ⟨rfl, by simpa [Table.has] using hNew, rfl⟩

/-- A user with a new id and a new key. -/
theorem UserStore.InStep.create (h : s.InStep letters)
    (hCreate : MemoryUserRepository.create letters s x = .ok (saved, s'))
    (hId : s.byId.get? x.id = none) (hKey : s.byApiKey.get? x.apiKey = none) (hNamed : x.id ≠ "") :
    s'.InStep letters := by
  obtain ⟨rfl, hEmail, rfl⟩ := create_ok hCreate
  constructor
  · exact h.keys.insert hId hKey
  · exact h.emails.insert hId hEmail
  · intro id user hUser
    rw [Table.get?_put] at hUser
    split at hUser
    · cases hUser
      exact letters.idempotent x.email
    · exact h.lower id user hUser
  · intro id user hUser
    rw [Table.get?_put] at hUser
    split at hUser
    · next hEq => exact hEq ▸ hNamed
    · exact h.named id user hUser

/-- A stored user is given a new key. -/
theorem UserStore.InStep.update (h : s.InStep letters)
    (hUpdate : MemoryUserRepository.update s x = .ok (saved, s'))
    (hEmail : ∀ prev, s.byId.get? x.id = some prev → prev.email = x.email)
    (hKey : s.byApiKey.get? x.apiKey = none) : s'.InStep letters ∧ s'.byId = s.byId.put x := by
  unfold MemoryUserRepository.update at hUpdate
  split at hUpdate
  · cases hUpdate
  · next prev hPrev =>
      have hChanged : prev.apiKey ≠ x.apiKey := h.keys.free_iff.mp hKey x.id prev hPrev
      rw [if_pos hChanged] at hUpdate
      cases hUpdate
      have hSame := hEmail prev hPrev
      refine ⟨⟨h.keys.move hPrev hKey, h.emails.rewrite hPrev hSame, ?_, ?_⟩, rfl⟩
      · intro id user hUser
        rw [Table.get?_put] at hUser
        split at hUser
        · cases hUser
          rw [← hSame]
          exact h.lower x.id prev hPrev
        · exact h.lower id user hUser
      · intro id user hUser
        rw [Table.get?_put] at hUser
        split at hUser
        · next hEq => exact hEq ▸ h.named x.id prev hPrev
        · exact h.named id user hUser

end store

/-- What a task has done. -/
abbrev UserPast := History UserCall UserAns UserError

def UserEvent.done (e : UserEvent) : Σ c : UserCall, Except UserError (UserAns c) :=
  ⟨e.call, e.answer⟩

abbrev userPastOf (i : Nat) (trace : List UserEvent) : UserPast :=
  ownCalls UserEvent.task UserEvent.done i trace

/-- The user that a settled call has seen in the store. -/
def userSeen : (Σ c : UserCall, Except UserError (UserAns c)) → Option User
  | ⟨.findById _, .ok found⟩ => found
  | ⟨.create _, .ok saved⟩ => some saved
  | _ => none

namespace UserPast

/-- The task has drawn what it is about to give to a user, and has not given anything. -/
def Earns (past : UserPast) (c : UserCall) : Prop :=
  (∀ token ∈ c.spends, ∃ h ∈ past, h.1.drew h.2 = some token) ∧
    ∀ h ∈ past, h.1.spends = []

/-- What a task may call after what it has done. -/
def Admits (letters : LetterCase) : UserRequest → UserPast → UserCall → Prop
  | .register input, past, .create x =>
      x.email = letters.toLowerCase (UserService.trim input.email) ∧ past.Earns (.create x)
  | .rotateApiKey _, past, .update x =>
      (∃ h ∈ past, ∃ r, userSeen h = some r ∧ r.id = x.id ∧ r.email = x.email) ∧
        past.Earns (.update x)
  | _, _, .create _ => False
  | _, _, .update _ => False
  | _, _, _ => True

/-- A registration that succeeds has created the user, and one that fails has not. -/
def Returns (letters : LetterCase) : UserRequest → Except UserError UserResult → UserPast → Prop
  | .register input, .ok result, past => ∃ x saved, ⟨.create x, .ok saved⟩ ∈ past ∧
      saved.email = letters.toLowerCase (letters.toLowerCase (UserService.trim input.email)) ∧
      result = .registered (toPublicUser saved) saved.apiKey
  | .register _, .error _, past => ∀ x saved, ⟨.create x, .ok saved⟩ ∉ past
  | _, _, _ => True

end UserPast

/-- What the answers are like. The audit log does not fail. -/
def userAnswers (letters : LetterCase) : (c : UserCall) → Except UserError (UserAns c) → Prop
  | .create x, .ok saved => saved = { x with email := letters.toLowerCase x.email }
  | .auditRecord _, .error _ => False
  | _, _ => True

namespace UserService

open Prog (perform follows_perform follows_bind follows_mono)

abbrev Serves (letters : LetterCase) (request : UserRequest) (p : UserAction UserResult)
    (past : UserPast) : Prop :=
  p.Follows (userAnswers letters) (UserPast.Admits letters request)
    (UserPast.Returns letters request) past

/-- The audit record comes last. -/
theorem serves_record {request : UserRequest} {input : AuditInput} {result : UserResult}
    {past : UserPast} (hDone : ∀ past', past <:+ past' →
      UserPast.Returns letters request (.ok result) past') :
    Serves letters request (do
      record audit input
      pure result) past := by
  unfold record
  split
  · apply And.intro
    · cases request <;> trivial
    · intro answer hAnswer
      cases answer with
      | ok event => exact hDone _ (List.suffix_cons _ past)
      | error e => exact hAnswer.elim
  · exact hDone past (List.suffix_refl past)

theorem serves_enroll (input : RegisterInput) :
    Serves letters (.register input)
      (enroll audit input (letters.toLowerCase (trim input.email))) [] := by
  apply follows_perform trivial
  · intro found _
    cases found with
    | some user =>
        intro x saved hMem
        cases List.mem_singleton.mp hMem
    | none =>
        apply follows_perform trivial
        · intro now _
          apply follows_perform trivial
          · intro random _
            apply follows_perform trivial
            · intro id _
              apply follows_perform trivial
              · intro passwordHash _
                apply follows_perform
                · apply And.intro rfl
                  constructor
                  · simp [UserCall.spends, UserCall.drew]
                  · simp [UserCall.spends]
                · intro saved hSaved
                  apply serves_record
                  intro past' hLong
                  exact ⟨_, saved, hLong.subset List.mem_cons_self, by rw [hSaved], by rw [hSaved]⟩
                · intro e _
                  simp [UserPast.Returns]
              · intro e _
                simp [UserPast.Returns]
            · intro e _
              simp [UserPast.Returns]
          · intro e _
            simp [UserPast.Returns]
        · intro e _
          simp [UserPast.Returns]
  · intro e _
    simp [UserPast.Returns]

/-- A registration hands out the key that it stores. -/
theorem serves_register (input : RegisterInput) :
    Serves letters (.register input) (register letters audit input) [] := by
  simp only [register]
  split
  · intro x saved hMem
    cases hMem
  split
  · intro x saved hMem
    cases hMem
  · exact serves_enroll input

theorem serves_login (email password : String) :
    Serves letters (.login email password)
      (login letters verifyPassword audit email password) [] := by
  apply follows_perform trivial
  · intro found _
    cases found with
    | none => trivial
    | some user =>
        dsimp only
        split
        · exact serves_record fun _ _ => trivial
        · trivial
  · exact fun _ _ => trivial

theorem serves_authenticate (apiKey : String) :
    Serves letters (.authenticate apiKey) (authenticate apiKey) [] := by
  unfold authenticate
  split
  · trivial
  apply follows_perform trivial
  · intro found _
    cases found <;> trivial
  · exact fun _ _ => trivial

/-- A rotation hands out the key that it stores. -/
theorem serves_rotateApiKey (userId : String) :
    Serves letters (.rotateApiKey userId) (rotateApiKey userId) [] := by
  apply follows_perform trivial
  · intro found _
    cases found with
    | none => trivial
    | some user =>
        apply follows_perform trivial
        · intro random _
          apply follows_perform trivial
          · intro now _
            apply follows_perform
            · constructor
              · exact ⟨⟨.findById userId, .ok (some user)⟩, by simp, user, rfl, rfl, rfl⟩
              · constructor
                · simp [UserCall.spends, UserCall.drew]
                · simp [UserCall.spends]
            · exact fun _ _ => trivial
            · exact fun _ _ => trivial
          · exact fun _ _ => trivial
        · exact fun _ _ => trivial
  · exact fun _ _ => trivial

/-- One case for each request. -/
theorem serves_entry (request : UserRequest) :
    Serves letters request ((userSystem letters verifyPassword audit).entry request) [] := by
  cases request with
  | register input => exact serves_register input
  | login email password => exact serves_login email password
  | authenticate apiKey => exact serves_authenticate apiKey
  | rotateApiKey userId => exact serves_rotateApiKey userId

end UserService

section step

variable {i : Nat} {c : UserCall} {reply : UserReply} {w w' : UserWorld}
  {answer : Except UserError (UserAns c)} {requests : List UserRequest} {m m' : Users}
  {label : Label UserReply UserRequest}

/-- What one settled call does: it is logged, and it leaves the users alone, creates one
or updates one. -/
theorem userExec_cases (h : userExec letters i c reply w = some (answer, w')) :
    w'.trace = ⟨i, c, answer⟩ :: w.trace ∧
      ((w'.users = w.users ∧ ∀ r, userSeen ⟨c, answer⟩ = some r → w.users.byId.get? r.id = some r) ∨
        (∃ x saved, (⟨c, answer⟩ : Σ c : UserCall, Except UserError (UserAns c)) =
            ⟨.create x, .ok saved⟩ ∧
          MemoryUserRepository.create letters w.users x = .ok (saved, w'.users)) ∨
        ∃ x saved, c = .update x ∧
          MemoryUserRepository.update w.users x = .ok (saved, w'.users)) := by
  unfold userExec at h
  split at h
  · next effect hEffect =>
      split at h
      · next a s hOk =>
          cases h
          refine ⟨rfl, ?_⟩
          cases c with
          | findById id =>
              cases hEffect
              cases hOk
              refine .inl ⟨rfl, fun r hSeen => ?_⟩
              have hRow : w.users.byId.get? id = some r := hSeen
              rwa [Table.key_of_get? hRow]
          | findByEmail email =>
              cases hEffect
              cases hOk
              exact .inl ⟨rfl, fun r hSeen => by cases hSeen⟩
          | findByApiKey apiKey =>
              cases hEffect
              cases hOk
              exact .inl ⟨rfl, fun r hSeen => by cases hSeen⟩
          | create x =>
              cases hEffect
              exact .inr (.inl ⟨x, a, rfl, hOk⟩)
          | update x =>
              cases hEffect
              exact .inr (.inr ⟨x, a, rfl, hOk⟩)
          | _ => cases hEffect
      · cases h
        refine ⟨rfl, .inl ⟨rfl, fun r hSeen => ?_⟩⟩
        cases c <;> cases hSeen
  · next hEffect =>
      obtain ⟨a, -, hEq⟩ := Option.map_eq_some_iff.mp h
      cases hEq
      refine ⟨rfl, .inl ⟨rfl, fun r hSeen => ?_⟩⟩
      cases c with
      | findById id => cases hEffect
      | create x => cases hEffect
      | _ => cases hSeen

/-- What a call draws is new, and ids are not empty. -/
theorem fresh_of_exec (h : userExec letters i c reply w = some (answer, w')) {token : UserToken}
    (hDraws : UserEvent.draws ⟨i, c, answer⟩ = some token) :
    token ∉ w.drawn.map Prod.fst ∧ token ≠ .id "" := by
  cases c with
  | uuid =>
      obtain ⟨a, hAnswer, hEq⟩ := Option.map_eq_some_iff.mp h
      cases hEq
      cases hDraws
      cases reply with
      | text s =>
          simp only [userAnswer, Option.ite_none_left_eq_some, Option.some.injEq] at hAnswer
          obtain ⟨hFresh, rfl⟩ := hAnswer
          constructor
          · exact fun hMem => hFresh (.inr hMem)
          · intro hEq
            cases hEq
            exact hFresh (.inl rfl)
      | _ => cases hAnswer
  | randomHex =>
      obtain ⟨a, hAnswer, hEq⟩ := Option.map_eq_some_iff.mp h
      cases hEq
      cases hDraws
      cases reply with
      | text s =>
          simp only [userAnswer, Option.ite_none_left_eq_some, Option.some.injEq] at hAnswer
          obtain ⟨hFresh, rfl⟩ := hAnswer
          exact ⟨hFresh, nofun⟩
      | _ => cases hAnswer
  | _ => cases hDraws

/-- An insertion answers the user with the address in lower case. -/
theorem userAnswers_of_exec (h : userExec letters i c reply w = some (answer, w')) :
    userAnswers letters c answer := by
  cases c with
  | create x =>
      simp only [userExec, userEffect] at h
      split at h
      · next saved s hCreate =>
          cases h
          exact (create_ok hCreate).1
      · cases h
        trivial
  | auditRecord input =>
      obtain ⟨a, -, hEq⟩ := Option.map_eq_some_iff.mp h
      cases hEq
      trivial
  | _ => trivial

/-- What holds of the stored users at every moment. -/
structure UserWorld.Sound (letters : LetterCase) (w : UserWorld) : Prop where
  inStep : w.users.InStep letters
  tokens : OwnTokens UserEvent.task UserEvent.draws UserEvent.spends w.trace
  named : ∀ i, (.id "", i) ∉ w.drawn
  ids : ∀ id user, w.users.byId.get? id = some user → ∃ e ∈ w.trace, .id id ∈ e.spends
  apiKeys : ∀ id user, w.users.byId.get? id = some user → ∃ e ∈ w.trace, .apiKey user.apiKey ∈ e.spends
  kept : ∀ e ∈ w.trace, ∀ r, userSeen e.done = some r →
    ∃ user, w.users.byId.get? r.id = some user ∧ user.email = r.email

theorem sound_empty : UserWorld.Sound letters .empty where
  inStep := inStep_empty
  tokens := ownTokens_nil
  named i hMem := by cases hMem
  ids id user hUser := by cases hUser
  apiKeys id user hUser := by cases hUser
  kept e hMem := by cases hMem

/-- What a task has drawn it may spend. -/
theorem token_of_past {token : UserToken}
    (h : ∃ e ∈ userPastOf i w.trace, e.1.drew e.2 = some token) :
    (token, i) ∈ w.drawn := by
  obtain ⟨d, hMem, hDraws⟩ := h
  obtain ⟨e, hIn, hTask, rfl⟩ := exists_of_mem_ownCalls hMem
  exact mem_drawnBy.mpr ⟨e, hIn, hDraws, hTask⟩

/-- A token that is about to be given to a user has not been given to anybody. -/
theorem UserWorld.Sound.unspent (h : w.Sound letters)
    (hEarns : UserPast.Earns (userPastOf i w.trace) c) {token : UserToken}
    (hSpent : token ∈ c.spends) : (token, i) ∈ w.drawn ∧ ∀ e ∈ w.trace, token ∉ e.spends := by
  have hDrawn := token_of_past (hEarns.1 token hSpent)
  apply And.intro hDrawn
  apply h.tokens.unspent hDrawn
  intro e hMem hTask hIn
  have hOwn : e.done ∈ userPastOf i w.trace := hTask ▸ mem_ownCalls hMem
  have hNothing : e.spends = [] := hEarns.2 _ hOwn
  rw [hNothing] at hIn
  cases hIn

/-- A key that nobody was given is free. -/
theorem UserWorld.Sound.free (h : w.Sound letters) {apiKey : String}
    (hNone : ∀ e ∈ w.trace, .apiKey apiKey ∉ e.spends) : w.users.byApiKey.get? apiKey = none := by
  apply h.inStep.keys.free_iff.mpr
  intro id user hUser hKey
  obtain ⟨e, hMem, hSpent⟩ := h.apiKeys id user hUser
  exact hNone e hMem (hKey ▸ hSpent)

/-- Only registrations and rotations change the stored users. A registration adds one
with a new id and a new key, a rotation gives one a new key. -/
inductive UserChange (letters : LetterCase) (w w' : UserWorld) (e : UserEvent) : Prop
  | quiet (hSame : w'.users = w.users)
      (hSeen : ∀ r, userSeen e.done = some r → w.users.byId.get? r.id = some r)
  | created (x : User) (hIn : w'.users.InStep letters) (hPut : w'.users.byId = w.users.byId.put x)
      (hNew : w.users.byId.get? x.id = none) (hSeen : userSeen e.done = some x)
      (hSpends : .id x.id ∈ e.spends ∧ .apiKey x.apiKey ∈ e.spends)
  | rotated (x prev : User) (hIn : w'.users.InStep letters)
      (hPut : w'.users.byId = w.users.byId.put x) (hPrev : w.users.byId.get? x.id = some prev)
      (hEmail : prev.email = x.email) (hSeen : userSeen e.done = none)
      (hSpends : .apiKey x.apiKey ∈ e.spends)

/-- A call that changes the store keeps the indexes in step and draws no key twice. -/
theorem UserWorld.Sound.change (h : w.Sound letters)
    (hExec : userExec letters i c reply w = some (answer, w')) {request : UserRequest}
    (hAdmits : UserPast.Admits letters request (userPastOf i w.trace) c) :
    UserChange letters w w' ⟨i, c, answer⟩ := by
  obtain ⟨-, ⟨hSame, hSeen⟩ | ⟨x, saved, hDone, hCreate⟩ | ⟨x, saved, rfl, hUpdate⟩⟩ :=
    userExec_cases hExec
  · exact .quiet hSame hSeen
  · cases hDone
    cases request with
    | register input =>
        obtain ⟨-, hEarns⟩ := hAdmits
        have hSpends : .id x.id ∈ (UserCall.create x).spends ∧
            .apiKey x.apiKey ∈ (UserCall.create x).spends := by simp [UserCall.spends]
        obtain ⟨hIdDrawn, hId⟩ := h.unspent hEarns hSpends.1
        obtain ⟨-, hKey⟩ := h.unspent hEarns hSpends.2
        have hNew : w.users.byId.get? x.id = none := by
          cases hRow : w.users.byId.get? x.id with
          | none => rfl
          | some row =>
              obtain ⟨e, hMem, hSpent⟩ := h.ids x.id row hRow
              exact absurd hSpent (hId e hMem)
        have hNamed : x.id ≠ "" := fun hEq => h.named i (hEq ▸ hIdDrawn)
        have hIn := h.inStep.create hCreate hNew (h.free hKey) hNamed
        obtain ⟨rfl, -, hStore⟩ := create_ok hCreate
        apply UserChange.created { x with email := letters.toLowerCase x.email } hIn _ hNew rfl
        · exact hSpends
        · rw [hStore]
    | _ => exact hAdmits.elim
  · cases request with
    | rotateApiKey userId =>
        obtain ⟨⟨d, hPast, r, hSeen, hId, hEmail⟩, hEarns⟩ := hAdmits
        have hSpends : .apiKey x.apiKey ∈ (UserCall.update x).spends := by simp [UserCall.spends]
        obtain ⟨-, hKey⟩ := h.unspent hEarns hSpends
        obtain ⟨e, hMem, -, rfl⟩ := exists_of_mem_ownCalls hPast
        obtain ⟨prev, hPrev, hSame⟩ := h.kept e hMem r hSeen
        rw [hId] at hPrev
        have hKeeps : prev.email = x.email := hSame.trans hEmail
        obtain ⟨hIn, hPut⟩ := h.inStep.update hUpdate (fun prev' hPrev' => by
          rw [hPrev] at hPrev'
          cases hPrev'
          exact hKeeps) (h.free hKey)
        refine .rotated x prev hIn hPut hPrev hKeeps ?_ ?_
        · cases answer <;> rfl
        · exact hSpends
    | _ => exact hAdmits.elim

/-- Users are not removed, and keep their email. -/
theorem UserChange.kept {e : UserEvent} (h : UserChange letters w w' e) {id : String} {user : User}
    (hUser : w.users.byId.get? id = some user) :
    ∃ user', w'.users.byId.get? id = some user' ∧ user'.email = user.email := by
  cases h with
  | quiet hSame => exact ⟨user, hSame ▸ hUser, rfl⟩
  | created x hIn hPut hNew =>
      rw [hPut, Table.get?_put]
      split
      · next hId =>
          rw [← hId, hNew] at hUser
          cases hUser
      · exact ⟨user, hUser, rfl⟩
  | rotated x prev hIn hPut hPrev hEmail =>
      rw [hPut, Table.get?_put]
      split
      · next hId =>
          rw [← hId, hPrev] at hUser
          cases hUser
          exact ⟨x, rfl, hEmail.symm⟩
      · exact ⟨user, hUser, rfl⟩

/-- Where a stored user comes from. -/
theorem UserChange.origin {e : UserEvent} (h : UserChange letters w w' e) {id : String}
    {user' : User} (hUser' : w'.users.byId.get? id = some user') :
    w.users.byId.get? id = some user' ∨
      (.apiKey user'.apiKey ∈ e.spends ∧
        (.id id ∈ e.spends ∨ ∃ user, w.users.byId.get? id = some user)) := by
  cases h with
  | quiet hSame => exact .inl (hSame ▸ hUser')
  | created x hIn hPut hNew hSeen hSpends =>
      rw [hPut, Table.get?_put] at hUser'
      split at hUser'
      · next hId =>
          cases hUser'
          exact .inr ⟨hSpends.2, .inl (hId ▸ hSpends.1)⟩
      · exact .inl hUser'
  | rotated x prev hIn hPut hPrev hEmail hSeen hSpends =>
      rw [hPut, Table.get?_put] at hUser'
      split at hUser'
      · next hId =>
          cases hUser'
          exact .inr ⟨hSpends, .inr ⟨prev, hId ▸ hPrev⟩⟩
      · exact .inl hUser'

/-- So does every other call. -/
theorem UserWorld.Sound.exec (h : w.Sound letters)
    (hExec : userExec letters i c reply w = some (answer, w')) {request : UserRequest}
    (hAdmits : UserPast.Admits letters request (userPastOf i w.trace) c) : w'.Sound letters := by
  have hChange := h.change hExec hAdmits
  have hTrace := (userExec_cases hExec).1
  have hGrows : ∀ e, e ∈ w.trace → e ∈ w'.trace := by
    intro e hMem
    rw [hTrace]
    exact List.mem_cons_of_mem _ hMem
  have hHere : (⟨i, c, answer⟩ : UserEvent) ∈ w'.trace := by
    rw [hTrace]
    exact List.mem_cons_self
  constructor
  · cases hChange with
    | quiet hSame => exact hSame ▸ h.inStep
    | created x hIn => exact hIn
    | rotated x prev hIn => exact hIn
  · rw [hTrace]
    apply h.tokens.cons
    · exact fun token hDraws => (fresh_of_exec hExec hDraws).1
    · intro token hSpent
      have hEarns : UserPast.Earns (userPastOf i w.trace) c := by
        cases c with
        | create x => cases request <;> first | exact hAdmits.2 | exact hAdmits.elim
        | update x => cases request <;> first | exact hAdmits.2 | exact hAdmits.elim
        | _ => cases hSpent
      exact (h.unspent hEarns hSpent).1
  · intro j hMem
    obtain ⟨e, hIn, hDraws, hTask⟩ := mem_drawnBy.mp hMem
    rw [hTrace] at hIn
    cases hIn with
    | head => exact (fresh_of_exec hExec hDraws).2 rfl
    | tail _ hOld => exact h.named j (mem_drawnBy.mpr ⟨e, hOld, hDraws, hTask⟩)
  · intro id user' hUser'
    have hSpent : .id id ∈ UserEvent.spends ⟨i, c, answer⟩ ∨ ∃ e ∈ w.trace, .id id ∈ e.spends := by
      rcases hChange.origin hUser' with hOld | ⟨-, hNew | ⟨user, hOld⟩⟩
      · exact .inr (h.ids id user' hOld)
      · exact .inl hNew
      · exact .inr (h.ids id user hOld)
    rcases hSpent with hNew | ⟨e, hMem, hOld⟩
    · exact ⟨_, hHere, hNew⟩
    · exact ⟨e, hGrows e hMem, hOld⟩
  · intro id user' hUser'
    rcases hChange.origin hUser' with hOld | ⟨hNew, -⟩
    · obtain ⟨e, hMem, hSpent⟩ := h.apiKeys id user' hOld
      exact ⟨e, hGrows e hMem, hSpent⟩
    · exact ⟨_, hHere, hNew⟩
  · intro e hMem r hSeen
    rw [hTrace] at hMem
    have hStays : ∀ user, w.users.byId.get? r.id = some user → user.email = r.email →
        ∃ user', w'.users.byId.get? r.id = some user' ∧ user'.email = r.email := by
      intro user hUser hEmail
      obtain ⟨user', hUser', hSame⟩ := hChange.kept hUser
      exact ⟨user', hUser', hSame.trans hEmail⟩
    cases hMem with
    | head =>
        cases hChange with
        | quiet hSame hRead => exact hStays r (hRead r hSeen) rfl
        | created x hIn hPut hNew hCreated =>
            rw [hCreated] at hSeen
            cases hSeen
            exact ⟨r, by rw [hPut, Table.get?_put, if_pos rfl], rfl⟩
        | rotated x prev hIn hPut hPrev hEmail hNone =>
            rw [hNone] at hSeen
            cases hSeen
    | tail _ hOld =>
        obtain ⟨user, hUser, hEmail⟩ := h.kept e hOld r hSeen
        exact hStays user hUser hEmail

/-- The trace records what every task has called. -/
def userRecording (letters : LetterCase) (verifyPassword : String → String → Bool) (audit : Bool) :
    Recording (userSystem letters verifyPassword audit) :=
  .ofLog UserEvent.task UserEvent.done UserWorld.trace fun hExec =>
    ⟨_, (userExec_cases hExec).1, rfl, rfl⟩

/-- Every task goes on as its request has it. -/
abbrev Users.Served (letters : LetterCase) (verifyPassword : String → String → Bool) (audit : Bool)
    (requests : List UserRequest) (m : Users) : Prop :=
  Serving (userRecording letters verifyPassword audit) (userAnswers letters)
    (UserPast.Admits letters) (UserPast.Returns letters) requests m

/-- A step extends what its task has done. -/
theorem Users.Served.step (hServed : m.Served letters verifyPassword audit requests)
    (hStep : (userSystem letters verifyPassword audit).step m label = some m') :
    m'.Served letters verifyPassword audit (requests ++ label.requested) := by
  apply Serving.step hServed _ _ hStep
  · intro request _
    exact UserService.serves_entry request
  · intro i reply c answer w' _ _ hExec
    exact userAnswers_of_exec hExec

theorem UserWorld.Sound.step (hSound : m.world.Sound letters)
    (hServed : m.Served letters verifyPassword audit requests)
    (hStep : (userSystem letters verifyPassword audit).step m label = some m') :
    m'.world.Sound letters := by
  rcases System.world_of_step hStep with hSame | ⟨i, reply, c, answer, -, hCall, hExec⟩
  · exact hSame ▸ hSound
  · obtain ⟨request, -, hAdmits⟩ := hServed.nextCall hCall
    exact hSound.exec hExec hAdmits

/-- Every run keeps the indexes in step. -/
theorem sound_of_takes (hRun : (userSystem letters verifyPassword audit).Takes (fun _ _ _ => True)
    (Machine.start .empty) requests m) :
    m.world.Sound letters ∧ m.Served letters verifyPassword audit requests := by
  apply hRun.invariant (P := fun requests (m : Users) =>
    m.world.Sound letters ∧ m.Served letters verifyPassword audit requests)
  · intro requests m label m' _ hStep hBoth
    exact ⟨hBoth.1.step hBoth.2 hStep, hBoth.2.step hStep⟩
  · exact ⟨sound_empty, serving_start fun _ => rfl⟩

/-- What a task has done stays done, and its request stays what it is. -/
theorem served_of_reaches {request : UserRequest} {h : Σ c : UserCall, Except UserError (UserAns c)}
    (hRun : (userSystem letters verifyPassword audit).Reaches (fun _ _ => True) m m')
    (hServed : m.Served letters verifyPassword audit requests)
    (hRequest : requests[i]? = some request) (hDid : h ∈ userPastOf i m.world.trace) :
    ∃ requests', m'.Served letters verifyPassword audit requests' ∧ requests'[i]? = some request ∧
      h ∈ userPastOf i m'.world.trace := by
  apply hRun.invariant (P := fun (m' : Users) => ∃ requests',
    m'.Served letters verifyPassword audit requests' ∧ requests'[i]? = some request ∧
      h ∈ userPastOf i m'.world.trace)
  · intro m label m' _ hStep hBefore
    obtain ⟨requests', hServed', hRequest', hDid'⟩ := hBefore
    refine ⟨requests' ++ label.requested, hServed'.step hStep, ?_, ?_⟩
    · rw [List.getElem?_append_left (List.getElem?_eq_some_iff.mp hRequest').1, hRequest']
    · rcases System.world_of_step hStep with hSame | ⟨j, reply, c, answer, -, -, hExec⟩
      · rwa [hSame]
      · rw [(userExec_cases hExec).1, userPastOf, ownCalls_cons]
        split
        · exact List.mem_cons_of_mem _ hDid'
        · exact hDid'
  · exact ⟨requests, hServed, hRequest, hDid⟩

end step

/-- However calls interleave, each stored user is found by its stored key and by no other,
no other key that was issued finds anybody, a registered email belongs to one user, and
a registration that fails changes nothing. -/
theorem keys_and_accounts_in_step (letters : LetterCase) (verifyPassword : String → String → Bool)
    (audit : Bool) {requests : List UserRequest} {m : Users}
    (hRun : (userSystem letters verifyPassword audit).Takes (fun _ _ _ => True)
      (Machine.start .empty) requests m) :
    (∀ user ∈ m.world.users.byId.rows, ∀ apiKey,
      MemoryUserRepository.findByApiKey m.world.users apiKey = some user ↔ apiKey = user.apiKey) ∧
    (∀ apiKey ∈ m.world.issued, (∀ user ∈ m.world.users.byId.rows, user.apiKey ≠ apiKey) →
      MemoryUserRepository.findByApiKey m.world.users apiKey = none) ∧
    (∀ user ∈ m.world.users.byId.rows, ∀ other ∈ m.world.users.byId.rows,
      letters.toLowerCase user.email = letters.toLowerCase other.email → user = other) ∧
    (∀ i input, requests[i]? = some (.register input) →
      (∀ t result, m.tasks[i]? = some t → t.prog = .ret (.ok result) →
        ∃ user ∈ m.world.users.byId.rows,
          user.email = letters.toLowerCase (UserService.trim input.email) ∧
          ∃ account apiKey, result = .registered account apiKey ∧ account.id = user.id) ∧
      ∀ reply m' m'' e, (userSystem letters verifyPassword audit).step m (.step i reply) = some m' →
        (userSystem letters verifyPassword audit).Reaches (fun _ _ => True) m' m'' →
        m''.rejection i = some e → m'.world.users = m.world.users) := by
  obtain ⟨hSound, hServed⟩ := sound_of_takes hRun
  have hRows : ∀ {user}, user ∈ m.world.users.byId.rows →
      m.world.users.byId.get? user.id = some user := Table.get?_of_mem
  refine ⟨?_, ?_, ?_, ?_⟩
  · intro user hUser apiKey
    rw [hSound.inStep.findByApiKey]
    constructor
    · exact fun hFound => hFound.2.symm
    · exact fun hKey => ⟨hRows hUser, hKey.symm⟩
  · intro apiKey _ hNobody
    apply Option.eq_none_iff_forall_ne_some.mpr
    intro user hFound
    obtain ⟨hRow, hKey⟩ := hSound.inStep.findByApiKey.mp hFound
    exact hNobody user (Table.mem_of_get? hRow) hKey
  · intro user hUser other hOther hSame
    rw [hSound.inStep.lower _ _ (hRows hUser), hSound.inStep.lower _ _ (hRows hOther)] at hSame
    exact (hSound.inStep.emails.unique (hRows hUser) (hRows hOther) hSame).2
  · intro i input hRequest
    constructor
    · intro t result ht hProg
      obtain ⟨request, hRequest', hReturns⟩ := hServed.returned ht hProg
      obtain rfl := Option.some.inj (hRequest.symm.trans hRequest')
      obtain ⟨x, saved, hDid, hEmail, rfl⟩ := hReturns
      obtain ⟨e, hMem, -, hDone⟩ := exists_of_mem_ownCalls hDid
      obtain ⟨user, hUser, hSame⟩ := hSound.kept e hMem saved (by rw [hDone]; rfl)
      refine ⟨user, Table.mem_of_get? hUser, ?_, _, _, rfl, (Table.key_of_get? hUser).symm⟩
      rw [hSame, hEmail, letters.idempotent]
    · intro reply m' m'' e hStep hRest hRejected
      rcases System.world_of_step hStep with hSame | ⟨j, reply', c, answer, hLabel, hCall, hExec⟩
      · rw [hSame]
      · cases hLabel
        obtain ⟨hTrace, ⟨hSame, -⟩ | ⟨x, saved, hDone, -⟩ | ⟨x, saved, rfl, -⟩⟩ :=
          userExec_cases hExec
        · exact hSame
        · -- the user was created, and then the registration does not fail
          have hDid : ⟨.create x, .ok saved⟩ ∈ userPastOf i m'.world.trace := by
            rw [hTrace, userPastOf, ownCalls_cons, if_pos rfl, UserEvent.done, hDone]
            exact List.mem_cons_self
          have hRequest' : (requests ++ Label.requested (.step i reply))[i]? =
              some (.register input) := by simpa [Label.requested] using hRequest
          obtain ⟨requests', hServed', hRequest', hDid'⟩ :=
            served_of_reaches hRest (hServed.step hStep) hRequest' hDid
          obtain ⟨t, ht, hProg⟩ := Option.bind_eq_some_iff.mp hRejected
          cases hp : t.prog with
          | ret outcome =>
              rw [hp] at hProg
              cases outcome with
              | ok result => cases hProg
              | error e' =>
                  obtain ⟨request, hMine, hReturns⟩ := hServed'.returned ht hp
                  obtain rfl := Option.some.inj (hRequest'.symm.trans hMine)
                  exact absurd hDid' (hReturns x saved)
          | _ =>
              rw [hp] at hProg
              cases hProg
        · obtain ⟨request, hMine, hAdmits⟩ := hServed.nextCall hCall
          obtain rfl := Option.some.inj (hRequest.symm.trans hMine)
          exact hAdmits.elim

namespace Sample

def asciiLower (s : String) : String :=
  String.ofList (s.toList.map Char.toLower)

/-- Lower case is lower case of itself. -/
theorem toLower_toLower (c : Char) : c.toLower.toLower = c.toLower := by
  unfold Char.toLower
  split
  · next hUpper =>
      have hLow : 65 ≤ c.toNat := UInt32.le_iff_toNat_le.mp hUpper.1
      have hHigh : c.toNat ≤ 90 := UInt32.le_iff_toNat_le.mp hUpper.2
      rw [dif_neg]
      intro hAgain
      have hSum := UInt32.le_iff_toNat_le.mp hAgain.2
      have hVal : (c.val + ('a'.val - 'A'.val)).toNat = c.toNat + 32 := by
        rw [UInt32.toNat_add]
        change (c.toNat + 32) % 4294967296 = _
        omega
      rw [hVal] at hSum
      change c.toNat + 32 ≤ 90 at hSum
      omega
  · rfl

def asciiLetters : LetterCase where
  toLowerCase := asciiLower
  idempotent s := by
    rw [asciiLower, asciiLower, String.toList_ofList, List.map_map]
    exact congrArg String.ofList (List.map_congr_left fun c _ => toLower_toLower c)

/-- The service without an audit log. Every password is right. -/
abbrev openSystem := userSystem asciiLetters (fun _ _ => true) false

def anyone (email : String) : UserRequest :=
  .register ⟨email, "password", none, none⟩

/-- A task looks the email up and draws an id and a key. -/
def enrolls (task : Nat) (email id key : String) : List (Label UserReply UserRequest) :=
  [.spawn (anyone email), .step task .normal, .step task (.time 0), .step task (.text key),
    .step task (.text id), .step task (.text "salt:hash")]

/-- Two tasks register one email at the same time. The first one is through. -/
def race : List (Label UserReply UserRequest) :=
  enrolls 0 "A@x.co" "u1" "a" ++ enrolls 1 " a@X.co" "u2" "b" ++ [.step 0 .normal]

/-- Two tasks rotate the key of `u1`, and both have read the user before they write. -/
def rotations : List (Label UserReply UserRequest) :=
  [.spawn (.rotateApiKey "u1"), .step 2 .normal, .spawn (.rotateApiKey "u1"), .step 3 .normal,
    .step 2 (.text "c"), .step 3 (.text "d"), .step 2 (.time 1), .step 3 (.time 1),
    .step 2 .normal, .step 3 .normal]

end Sample

/-- Of two registrations of one email one fails and changes nothing. After two rotations
at the same time the user is found by the key that was written last. -/
theorem keys_and_accounts_in_step_sample :
    (∃ requests m m' e,
      Sample.openSystem.Takes (fun _ _ _ => True) (Machine.start .empty) requests m ∧
      requests[1]? = some (Sample.anyone " a@X.co") ∧
      Sample.openSystem.step m (.step 1 .normal) = some m' ∧
      m'.rejection 1 = some e ∧ m'.world.users = m.world.users) ∧
    ∃ requests m, Sample.openSystem.Takes (fun _ _ _ => True) (Machine.start .empty) requests m ∧
      "vpk_c" ∈ m.world.issued ∧ ∃ user ∈ m.world.users.byId.rows,
      (∀ apiKey, MemoryUserRepository.findByApiKey m.world.users apiKey = some user ↔
        apiKey = "vpk_d") ∧
      MemoryUserRepository.findByApiKey m.world.users "vpk_c" = none ∧
      ∀ other ∈ m.world.users.byId.rows,
        Sample.asciiLetters.toLowerCase user.email = Sample.asciiLetters.toLowerCase other.email →
          user = other := by
  constructor
  · obtain ⟨requests, m, hRun, hCheck⟩ := System.exists_takes Sample.openSystem (fun _ _ _ => true)
      (Machine.start .empty) Sample.race
      (fun run => run.1[1]? = some (Sample.anyone " a@X.co") &&
        (Sample.openSystem.step run.2 (.step 1 .normal)).any fun m' => (m'.rejection 1).isSome)
      (by decide +kernel)
    simp only [Bool.and_eq_true, decide_eq_true_eq, Option.any_eq_true] at hCheck
    obtain ⟨hRequest, m', hStep, hRejected⟩ := hCheck
    obtain ⟨e, hRejected⟩ := Option.isSome_iff_exists.mp hRejected
    have hTakes := hRun.mono fun _ _ _ _ => trivial
    obtain ⟨-, -, -, hRegistered⟩ := keys_and_accounts_in_step Sample.asciiLetters _ false hTakes
    exact ⟨requests, m, m', e, hTakes, hRequest, hStep, hRejected,
      (hRegistered 1 _ hRequest).2 .normal m' m' e hStep (.refl m') hRejected⟩
  · obtain ⟨requests, m, hRun, hCheck⟩ := System.exists_takes Sample.openSystem (fun _ _ _ => true)
      (Machine.start .empty) (Sample.race ++ [.step 1 .normal] ++ Sample.rotations)
      (fun run => run.2.world.issued.contains "vpk_c" &&
        run.2.world.users.byId.rows.all (fun user => user.apiKey ≠ "vpk_c") &&
        run.2.world.users.byId.rows.any fun user => user.apiKey = "vpk_d") (by decide +kernel)
    simp only [Bool.and_eq_true, List.all_eq_true, List.any_eq_true, decide_eq_true_eq] at hCheck
    obtain ⟨⟨hIssued, hNobody⟩, user, hUser, hKey⟩ := hCheck
    have hTakes := hRun.mono fun _ _ _ _ => trivial
    obtain ⟨hKeys, hOthers, hEmails, -⟩ := keys_and_accounts_in_step Sample.asciiLetters _ false hTakes
    have hDrawn : "vpk_c" ∈ m.world.issued := by simpa using hIssued
    exact ⟨requests, m, hTakes, hDrawn, user, hUser, hKey ▸ hKeys user hUser,
      hOthers "vpk_c" hDrawn hNobody, hEmails user hUser⟩

end VpnPayment
