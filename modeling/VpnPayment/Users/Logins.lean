import VpnPayment.Users.KeysInStep

/-! A login goes by the password that its address was registered with, however the calls
of the service interleave. -/
namespace VpnPayment

open Async Collections

variable {letters : LetterCase} {verifyPassword : String → String → Bool} {audit : Bool}

namespace UserService

/-- The address that a typed email stands for. -/
def addressOf (letters : LetterCase) (email : String) : String :=
  letters.toLowerCase (trim email)

end UserService

open UserService (addressOf EMAIL_RE)

theorem lower_addressOf (email : String) :
    letters.toLowerCase (addressOf letters email) = addressOf letters email :=
  letters.idempotent _

/-- The lookup by email finds the user with it. -/
theorem UserStore.InStep.findByEmail {s : UserStore} {email : String} {user : User}
    (h : s.InStep letters) : MemoryUserRepository.findByEmail letters s email = some user ↔
      s.byId.get? user.id = some user ∧ user.email = letters.toLowerCase email := by
  rw [MemoryUserRepository.findByEmail, truthy_lookup]
  · change (s.byEmail.get? _).bind (fun entry => s.byId.get? entry.2) = _ ↔ _
    rw [h.emails.lookup]
    constructor
    · intro hFound
      obtain ⟨i, hRow, hEmail⟩ := hFound
      obtain rfl : user.id = i := Table.key_of_get? hRow
      exact ⟨hRow, hEmail⟩
    · intro hFound
      exact ⟨user.id, hFound⟩
  · intro i hEntry
    obtain ⟨row, hRow, -⟩ := (h.emails _ i).mp hEntry
    exact h.named i row hRow

namespace UserPast

/-- The task has made a hash of the password. -/
def Hashed (past : UserPast) (password hash : String) : Prop :=
  ⟨.hashPassword password, .ok hash⟩ ∈ past

/-- A hash that was made stays made. -/
theorem Hashed.cons {past : UserPast} {password hash : String}
    {h : Σ c : UserCall, Except UserError (UserAns c)} (hMade : past.Hashed password hash) :
    Hashed (h :: past) password hash :=
  List.mem_cons_of_mem h hMade

/-- What is written to the store: a registration writes its address and a hash of its
password, and a rotation leaves both as it has read them. -/
def Keeps (letters : LetterCase) : UserRequest → UserPast → UserCall → Prop
  | .register input, past, .create x => x.email = addressOf letters input.email ∧
      EMAIL_RE x.email = true ∧ past.Hashed input.password x.passwordHash
  | .rotateApiKey _, past, .update x => ∃ h ∈ past, ∃ r, userSeen h = some r ∧
      r.id = x.id ∧ r.email = x.email ∧ r.passwordHash = x.passwordHash
  | _, _, .create _ => False
  | _, _, .update _ => False
  | _, _, _ => True

/-- A registration has stored a hash of its password. A login goes by the hash that it
has found under the address. -/
def Decides (letters : LetterCase) (verifyPassword : String → String → Bool) :
    UserRequest → Except UserError UserResult → UserPast → Prop
  | .register input, .ok _, past => ∃ x saved, ⟨.create x, .ok saved⟩ ∈ past ∧
      saved.email = addressOf letters input.email ∧ past.Hashed input.password saved.passwordHash
  | .login email password, .ok result, past => ∃ user,
      ⟨.findByEmail (addressOf letters email), .ok (some user)⟩ ∈ past ∧
      verifyPassword password user.passwordHash = true ∧
      result = .loggedIn (toPublicUser user) user.apiKey
  | .login email password, .error _, past => ∃ found,
      ⟨.findByEmail (addressOf letters email), .ok found⟩ ∈ past ∧
      ∀ user, found = some user → verifyPassword password user.passwordHash = false
  | _, _, _ => True

end UserPast

/-- What the answers are like. Lookups and the audit log do not fail. -/
def lookupAnswers (letters : LetterCase) : (c : UserCall) → Except UserError (UserAns c) → Prop
  | .findByEmail _, .error _ => False
  | c, answer => userAnswers letters c answer

namespace UserService

open Prog (perform follows_perform)

abbrev Guards (letters : LetterCase) (verifyPassword : String → String → Bool)
    (request : UserRequest) (p : UserAction UserResult) (past : UserPast) : Prop :=
  p.Follows (lookupAnswers letters) (UserPast.Keeps letters request)
    (UserPast.Decides letters verifyPassword request) past

/-- The audit record comes last. -/
theorem guards_record {request : UserRequest} {input : AuditInput} {result : UserResult}
    {past : UserPast} (hDone : ∀ past', past <:+ past' →
      UserPast.Decides letters verifyPassword request (.ok result) past') :
    Guards letters verifyPassword request (do
      record audit input
      pure result) past := by
  unfold record
  split
  · apply And.intro
    · cases request <;> trivial
    · intro answer hAnswer
      cases answer with
      | ok event => exact hDone _ (List.suffix_cons _ past)
      | error e => exact hAnswer.elim
  · exact hDone past (List.suffix_refl past)

/-- A registration hashes its password before it stores the user. -/
theorem guards_register (input : RegisterInput) :
    Guards letters verifyPassword (.register input) (register letters audit input) [] := by
  simp only [register]
  split
  · trivial
  next hEmail =>
  split
  · trivial
  apply follows_perform trivial
  · intro found _
    cases found with
    | some user => trivial
    | none =>
        apply follows_perform trivial
        · intro now _
          apply follows_perform trivial
          · intro random _
            apply follows_perform trivial
            · intro id _
              apply follows_perform trivial
              · intro passwordHash _
                apply follows_perform
                · exact ⟨rfl, by simpa using hEmail, List.mem_cons_self⟩
                · intro saved hSaved
                  apply guards_record
                  intro past' hLong
                  refine ⟨_, saved, hLong.subset List.mem_cons_self, ?_, ?_⟩
                  · rw [hSaved]
                    exact lower_addressOf input.email
                  · rw [hSaved]
                    exact hLong.subset (List.mem_cons_of_mem _ List.mem_cons_self)
                · exact fun _ _ => trivial
              · exact fun _ _ => trivial
            · exact fun _ _ => trivial
          · exact fun _ _ => trivial
        · exact fun _ _ => trivial
  · exact fun _ _ => trivial

/-- A login compares the password with the hash of the row it read. -/
theorem guards_login (email password : String) :
    Guards letters verifyPassword (.login email password)
      (login letters verifyPassword audit email password) [] := by
  apply follows_perform trivial
  · intro found _
    cases found with
    | none => exact ⟨none, List.mem_cons_self, fun user hUser => by cases hUser⟩
    | some user =>
        dsimp only
        split
        · next hVerified =>
            apply guards_record
            intro past' hLong
            exact ⟨user, hLong.subset List.mem_cons_self, hVerified, rfl⟩
        · next hRefused =>
            refine ⟨some user, List.mem_cons_self, fun user' hUser => ?_⟩
            cases hUser
            exact Bool.eq_false_iff.mpr hRefused
  · intro e hAnswer
    exact hAnswer.elim

theorem guards_authenticate (apiKey : String) :
    Guards letters verifyPassword (.authenticate apiKey) (authenticate apiKey) [] := by
  unfold authenticate
  split
  · trivial
  apply follows_perform trivial
  · intro found _
    cases found <;> trivial
  · exact fun _ _ => trivial

theorem guards_rotateApiKey (userId : String) :
    Guards letters verifyPassword (.rotateApiKey userId) (rotateApiKey userId) [] := by
  apply follows_perform trivial
  · intro found _
    cases found with
    | none => trivial
    | some user =>
        apply follows_perform trivial
        · intro random _
          apply follows_perform trivial
          · intro now _
            apply follows_perform
            · exact ⟨⟨.findById userId, .ok (some user)⟩, by simp, user, rfl, rfl, rfl, rfl⟩
            · exact fun _ _ => trivial
            · exact fun _ _ => trivial
          · exact fun _ _ => trivial
        · exact fun _ _ => trivial
  · exact fun _ _ => trivial

/-- One case for each request. -/
theorem guards_entry (request : UserRequest) :
    Guards letters verifyPassword request ((userSystem letters verifyPassword audit).entry request) [] := by
  cases request with
  | register input => exact guards_register input
  | login email password => exact guards_login email password
  | authenticate apiKey => exact guards_authenticate apiKey
  | rotateApiKey userId => exact guards_rotateApiKey userId

end UserService

section step

variable {i : Nat} {c : UserCall} {reply : UserReply} {w w' : UserWorld}
  {answer : Except UserError (UserAns c)} {requests later : List UserRequest} {m m' : Users}
  {label : Label UserReply UserRequest} {email : String} {found : Option User} {user : User}

/-- A lookup by email answers with what the store has. -/
theorem findByEmail_of_exec (h : userExec letters i c reply w = some (answer, w'))
    (hDone : (⟨c, answer⟩ : Σ c : UserCall, Except UserError (UserAns c)) =
      ⟨.findByEmail email, .ok found⟩) :
    MemoryUserRepository.findByEmail letters w.users email = found := by
  cases hDone
  cases h
  rfl

/-- A lookup does not fail. -/
theorem lookupAnswers_of_exec (h : userExec letters i c reply w = some (answer, w')) :
    lookupAnswers letters c answer := by
  cases c with
  | findByEmail email =>
      cases h
      trivial
  | _ => exact userAnswers_of_exec h

/-- Every task goes by what its request and the store say. -/
abbrev Users.Guarded (letters : LetterCase) (verifyPassword : String → String → Bool) (audit : Bool)
    (requests : List UserRequest) (m : Users) : Prop :=
  Serving (userRecording letters verifyPassword audit) (lookupAnswers letters)
    (UserPast.Keeps letters) (UserPast.Decides letters verifyPassword) requests m

/-- A step of a task extends what the task has done. -/
theorem Users.Guarded.step (hGuarded : m.Guarded letters verifyPassword audit requests)
    (hStep : (userSystem letters verifyPassword audit).step m label = some m') :
    m'.Guarded letters verifyPassword audit (requests ++ label.requested) := by
  apply Serving.step hGuarded _ _ hStep
  · intro request _
    exact UserService.guards_entry request
  · intro i reply c answer w' _ _ hExec
    exact lookupAnswers_of_exec hExec

/-- A user that a registration has stored: the address is one, and the hash was made of
the password of the registration. -/
def Enrolled (letters : LetterCase) (requests : List UserRequest) (trace : List UserEvent)
    (user : User) : Prop :=
  ∃ j input, requests[j]? = some (.register input) ∧ user.email = addressOf letters input.email ∧
    EMAIL_RE user.email = true ∧ (userPastOf j trace).Hashed input.password user.passwordHash

/-- An enrolled user stays enrolled. -/
theorem Enrolled.grow {trace : List UserEvent} (h : Enrolled letters requests trace user)
    (e : UserEvent) (later : List UserRequest) :
    Enrolled letters (requests ++ later) (e :: trace) user := by
  obtain ⟨j, input, hRequest, hEmail, hValid, hHash⟩ := h
  refine ⟨j, input, ?_, hEmail, hValid, ?_⟩
  · rw [List.getElem?_append_left (List.getElem?_eq_some_iff.mp hRequest).1, hRequest]
  · rw [userPastOf, ownCalls_cons]
    split
    · exact hHash.cons
    · exact hHash

/-- What holds of the stored users and of those that were read. -/
structure UserWorld.Credited (letters : LetterCase) (requests : List UserRequest) (w : UserWorld) :
    Prop where
  rows : ∀ id user, w.users.byId.get? id = some user → Enrolled letters requests w.trace user
  found : ∀ e ∈ w.trace, ∀ email user, e.done = ⟨.findByEmail email, .ok (some user)⟩ →
    Enrolled letters requests w.trace user ∧ user.email = letters.toLowerCase email ∧
      ∃ row, w.users.byId.get? user.id = some row ∧ row.email = user.email ∧
        row.passwordHash = user.passwordHash
  kept : ∀ e ∈ w.trace, ∀ r, userSeen e.done = some r →
    ∃ user, w.users.byId.get? r.id = some user ∧ user.passwordHash = r.passwordHash

theorem credited_empty : UserWorld.Credited letters [] .empty where
  rows id user hUser := by cases hUser
  found e hMem := by cases hMem
  kept e hMem := by cases hMem

/-- An update rewrites a row that was there. -/
theorem update_ok {s s' : UserStore} {x saved : User}
    (h : MemoryUserRepository.update s x = .ok (saved, s')) :
    ∃ prev, s.byId.get? x.id = some prev ∧ s'.byId = s.byId.put x := by
  unfold MemoryUserRepository.update at h
  split at h
  · cases h
  · next prev hPrev =>
      cases h
      exact ⟨prev, hPrev, rfl⟩

/-- What a call does to the stored rows: a registration adds one that it may answer for,
and a rotation leaves address and hash of one. -/
inductive RowChange (letters : LetterCase) (requests : List UserRequest) (w w' : UserWorld)
    (h : Σ c : UserCall, Except UserError (UserAns c)) : Prop
  | quiet (hSame : w'.users.byId = w.users.byId)
      (hSeen : ∀ r, userSeen h = some r → w.users.byId.get? r.id = some r)
  | enrolled (x : User) (hPut : w'.users.byId = w.users.byId.put x)
      (hNew : w.users.byId.get? x.id = none) (hSeen : userSeen h = some x)
      (hEnrolled : Enrolled letters requests w.trace x)
  | rotated (x prev : User) (hPut : w'.users.byId = w.users.byId.put x)
      (hPrev : w.users.byId.get? x.id = some prev) (hSeen : userSeen h = none)
      (hEmail : x.email = prev.email) (hHash : x.passwordHash = prev.passwordHash)

/-- Every row that a call leaves is credited to a request. -/
theorem UserWorld.Credited.change (h : w.Credited letters requests) (hSound : w.Sound letters)
    (hExec : userExec letters i c reply w = some (answer, w')) {request : UserRequest}
    (hRequest : requests[i]? = some request)
    (hAdmits : UserPast.Admits letters request (userPastOf i w.trace) c)
    (hKeeps : UserPast.Keeps letters request (userPastOf i w.trace) c) :
    RowChange letters requests w w' ⟨c, answer⟩ := by
  have hChange := hSound.change hExec hAdmits
  obtain ⟨-, ⟨hSame, hSeen⟩ | ⟨x, saved, hDone, hCreate⟩ | ⟨x, saved, rfl, hUpdate⟩⟩ :=
    userExec_cases hExec
  · exact .quiet (by rw [hSame]) hSeen
  · cases hDone
    obtain ⟨rfl, -, -⟩ := create_ok hCreate
    cases request with
    | register input =>
        obtain ⟨hEmail, hValid, hHash⟩ := hKeeps
        cases hChange with
        | quiet hSame hSeen => exact .quiet (by rw [hSame]) hSeen
        | created y hIn hPut hNew hSeen =>
            cases hSeen
            have hLower : letters.toLowerCase x.email = x.email := by
              rw [hEmail]
              exact lower_addressOf input.email
            refine .enrolled _ hPut hNew rfl ⟨i, input, hRequest, ?_, ?_, hHash⟩
            · exact hLower.trans hEmail
            · exact (congrArg EMAIL_RE hLower).trans hValid
        | rotated y prev hIn hPut hPrev hSame hNone => cases hNone
    | _ => exact hKeeps.elim
  · cases request with
    | rotateApiKey userId =>
        obtain ⟨d, hPast, r, hSeen, hId, hEmail, hHash⟩ := hKeeps
        obtain ⟨e, hMem, -, rfl⟩ := exists_of_mem_ownCalls hPast
        obtain ⟨user, hUser, hSameHash⟩ := h.kept e hMem r hSeen
        obtain ⟨user', hUser', hSameEmail⟩ := hSound.kept e hMem r hSeen
        obtain rfl := Option.some.inj (hUser.symm.trans hUser')
        obtain ⟨prev, hPrev, hPut⟩ := update_ok hUpdate
        rw [hId, hPrev] at hUser
        cases hUser
        refine .rotated x _ hPut hPrev ?_ ?_ ?_
        · cases answer <;> rfl
        · rw [← hEmail, hSameEmail]
        · rw [← hHash, hSameHash]
    | _ => exact hKeeps.elim

variable {h : Σ c : UserCall, Except UserError (UserAns c)}

/-- A stored user keeps address and hash. -/
theorem RowChange.kept (hChange : RowChange letters requests w w' h) {id : String}
    (hUser : w.users.byId.get? id = some user) : ∃ user', w'.users.byId.get? id = some user' ∧
      user'.email = user.email ∧ user'.passwordHash = user.passwordHash := by
  cases hChange with
  | quiet hSame => exact ⟨user, hSame ▸ hUser, rfl, rfl⟩
  | enrolled x hPut hNew =>
      rw [hPut, Table.get?_put]
      split
      · next hId =>
          rw [← hId, hNew] at hUser
          cases hUser
      · exact ⟨user, hUser, rfl, rfl⟩
  | rotated x prev hPut hPrev hSeen hEmail hHash =>
      rw [hPut, Table.get?_put]
      split
      · next hId =>
          rw [← hId, hPrev] at hUser
          cases hUser
          exact ⟨x, rfl, hEmail, hHash⟩
      · exact ⟨user, hUser, rfl, rfl⟩

theorem RowChange.enrolled_of_row (hChange : RowChange letters requests w w' h)
    (hRows : ∀ id user, w.users.byId.get? id = some user → Enrolled letters requests w.trace user)
    {id : String} (hUser : w'.users.byId.get? id = some user) :
    Enrolled letters requests w.trace user := by
  cases hChange with
  | quiet hSame => exact hRows id user (hSame ▸ hUser)
  | enrolled x hPut hNew hSeen hEnrolled =>
      rw [hPut, Table.get?_put] at hUser
      split at hUser
      · cases hUser
        exact hEnrolled
      · exact hRows id user hUser
  | rotated x prev hPut hPrev hSeen hEmail hHash =>
      rw [hPut, Table.get?_put] at hUser
      split at hUser
      · cases hUser
        obtain ⟨j, input, hRequest, hAddress, hValid, hMade⟩ := hRows _ prev hPrev
        exact ⟨j, input, hRequest, hEmail.trans hAddress, (congrArg EMAIL_RE hEmail).trans hValid,
          hHash ▸ hMade⟩
      · exact hRows id user hUser

/-- A call keeps every stored user credited. -/
theorem UserWorld.Credited.exec (hCredited : w.Credited letters requests) (hSound : w.Sound letters)
    (hExec : userExec letters i c reply w = some (answer, w')) {request : UserRequest}
    (hRequest : requests[i]? = some request)
    (hAdmits : UserPast.Admits letters request (userPastOf i w.trace) c)
    (hKeeps : UserPast.Keeps letters request (userPastOf i w.trace) c) :
    w'.Credited letters requests := by
  have hChange := hCredited.change hSound hExec hRequest hAdmits hKeeps
  have hTrace := (userExec_cases hExec).1
  have hGrow : ∀ {user}, Enrolled letters requests w.trace user →
      Enrolled letters requests w'.trace user := by
    intro user hEnrolled
    rw [hTrace, ← List.append_nil requests]
    exact hEnrolled.grow _ []
  constructor
  · intro id user hUser
    exact hGrow (hChange.enrolled_of_row hCredited.rows hUser)
  · intro e hMem email user hDone
    rw [hTrace] at hMem
    cases hMem with
    | head =>
        have hFound := hSound.inStep.findByEmail.mp (findByEmail_of_exec hExec hDone)
        exact ⟨hGrow (hCredited.rows _ _ hFound.1), hFound.2, hChange.kept hFound.1⟩
    | tail _ hOld =>
        obtain ⟨hEnrolled, hEmail, row, hRow, hSameEmail, hSameHash⟩ :=
          hCredited.found e hOld email user hDone
        obtain ⟨row', hRow', hEmail', hHash'⟩ := hChange.kept hRow
        exact ⟨hGrow hEnrolled, hEmail, row', hRow', hEmail'.trans hSameEmail,
          hHash'.trans hSameHash⟩
  · intro e hMem r hSeen
    rw [hTrace] at hMem
    cases hMem with
    | head =>
        cases hChange with
        | quiet hSame hRead => exact ⟨r, hSame ▸ hRead r hSeen, rfl⟩
        | enrolled x hPut hNew hSeen' =>
            cases hSeen'.symm.trans hSeen
            exact ⟨r, by rw [hPut, Table.get?_put, if_pos rfl], rfl⟩
        | rotated x prev hPut hPrev hNone => cases hNone.symm.trans hSeen
    | tail _ hOld =>
        obtain ⟨user, hUser, hSame⟩ := hCredited.kept e hOld r hSeen
        obtain ⟨user', hUser', -, hHash⟩ := hChange.kept hUser
        exact ⟨user', hUser', hHash.trans hSame⟩

/-- What holds in every state reached, with the requests taken so far. -/
structure Users.Accountable (letters : LetterCase) (verifyPassword : String → String → Bool)
    (audit : Bool) (requests : List UserRequest) (m : Users) : Prop where
  sound : m.world.Sound letters
  served : m.Served letters verifyPassword audit requests
  guarded : m.Guarded letters verifyPassword audit requests
  credited : m.world.Credited letters requests

/-- More requests take no credit away. -/
theorem UserWorld.Credited.request (hCredited : w.Credited letters requests)
    (later : List UserRequest) : w.Credited letters (requests ++ later) := by
  have hGrow : ∀ {user}, Enrolled letters requests w.trace user →
      Enrolled letters (requests ++ later) w.trace user := by
    intro user hEnrolled
    obtain ⟨j, input, hRequest, hRest⟩ := hEnrolled
    refine ⟨j, input, ?_, hRest⟩
    rw [List.getElem?_append_left (List.getElem?_eq_some_iff.mp hRequest).1, hRequest]
  constructor
  · intro id user hUser
    exact hGrow (hCredited.rows id user hUser)
  · intro e hMem email user hDone
    exact ⟨hGrow (hCredited.found e hMem email user hDone).1,
      (hCredited.found e hMem email user hDone).2⟩
  · exact hCredited.kept

/-- A step keeps the users credited and the tasks guarded. -/
theorem Users.Accountable.step (hBefore : m.Accountable letters verifyPassword audit requests)
    (hStep : (userSystem letters verifyPassword audit).step m label = some m') :
    m'.Accountable letters verifyPassword audit (requests ++ label.requested) where
  sound := hBefore.sound.step hBefore.served hStep
  served := hBefore.served.step hStep
  guarded := hBefore.guarded.step hStep
  credited := by
    apply UserWorld.Credited.request
    rcases System.world_of_step hStep with hSame | ⟨i, reply, c, answer, -, hCall, hExec⟩
    · exact hSame ▸ hBefore.credited
    · obtain ⟨request, hRequest, hAdmits⟩ := hBefore.served.nextCall hCall
      obtain ⟨request', hRequest', hKeeps⟩ := hBefore.guarded.nextCall hCall
      obtain rfl := Option.some.inj (hRequest.symm.trans hRequest')
      exact hBefore.credited.exec hBefore.sound hExec hRequest hAdmits hKeeps

/-- So does every run. -/
theorem accountable_of_takes (hRun : (userSystem letters verifyPassword audit).Takes
    (fun _ _ _ => True) (Machine.start .empty) requests m) :
    m.Accountable letters verifyPassword audit requests := by
  apply hRun.invariant (P := fun requests (m : Users) =>
    m.Accountable letters verifyPassword audit requests)
  · exact fun requests m label m' _ hStep hBefore => hBefore.step hStep
  · exact ⟨sound_empty, serving_start fun _ => rfl, serving_start fun _ => rfl, credited_empty⟩

/-- A user that was saved is stored, with the address and the hash of then. -/
theorem Users.Accountable.stored (hNow : m.Accountable letters verifyPassword audit requests)
    {e : UserEvent} (hMem : e ∈ m.world.trace) (hSeen : userSeen e.done = some user) :
    ∃ row, m.world.users.byId.get? user.id = some row ∧ row.email = user.email ∧
      row.passwordHash = user.passwordHash := by
  obtain ⟨row, hRow, hEmail⟩ := hNow.sound.kept e hMem user hSeen
  obtain ⟨row', hRow', hHash⟩ := hNow.credited.kept e hMem user hSeen
  obtain rfl := Option.some.inj (hRow.symm.trans hRow')
  exact ⟨row, hRow, hEmail, hHash⟩

/-- A task that is rejected has settled with the error. -/
theorem exists_of_rejection {e : UserError} (hRejected : m.rejection i = some e) :
    ∃ t, m.tasks[i]? = some t ∧ t.prog = .ret (.error e) := by
  obtain ⟨t, ht, hProg⟩ := Option.bind_eq_some_iff.mp hRejected
  cases hp : t.prog with
  | ret outcome =>
      rw [hp] at hProg
      cases outcome with
      | ok result => cases hProg
      | error e' =>
          cases hProg
          exact ⟨t, ht, hp⟩
  | _ =>
      rw [hp] at hProg
      cases hProg

/-- Who was stored under an address is found there by everyone who asks from now on. -/
structure Users.Found (letters : LetterCase) (n : Nat) (email hash : String) (m : Users) : Prop where
  row : ∃ id user, m.world.users.byId.get? id = some user ∧ user.email = email ∧
    user.passwordHash = hash
  asked : ∀ i, n ≤ i → ∀ typed found, letters.toLowerCase typed = email →
    ⟨.findByEmail typed, .ok found⟩ ∈ userPastOf i m.world.trace →
    ∃ user, found = some user ∧ user.passwordHash = hash

theorem Users.Found.step {n : Nat} {email hash : String} (hFound : m.Found letters n email hash)
    (hBefore : m.Accountable letters verifyPassword audit requests)
    (hStep : (userSystem letters verifyPassword audit).step m label = some m') :
    m'.Found letters n email hash := by
  rcases System.world_of_step hStep with hSame | ⟨i, reply, c, answer, -, hCall, hExec⟩
  · exact ⟨hSame ▸ hFound.row, hSame ▸ hFound.asked⟩
  obtain ⟨request, hRequest, hAdmits⟩ := hBefore.served.nextCall hCall
  obtain ⟨request', hRequest', hKeeps⟩ := hBefore.guarded.nextCall hCall
  obtain rfl := Option.some.inj (hRequest.symm.trans hRequest')
  have hChange := hBefore.credited.change hBefore.sound hExec hRequest hAdmits hKeeps
  obtain ⟨id, row, hRow, hEmail, hHash⟩ := hFound.row
  constructor
  · obtain ⟨row', hRow', hEmail', hHash'⟩ := hChange.kept hRow
    exact ⟨id, row', hRow', hEmail'.trans hEmail, hHash'.trans hHash⟩
  · intro j hLate typed found hTyped hMem
    rw [(userExec_cases hExec).1, userPastOf, ownCalls_cons] at hMem
    split at hMem
    · cases hMem with
      | head =>
          -- the lookup of now finds the row
          have hId : row.id = id := Table.key_of_get? hRow
          have hLookup : MemoryUserRepository.findByEmail letters m.world.users typed = some row :=
            hBefore.sound.inStep.findByEmail.mpr ⟨hId ▸ hRow, hEmail.trans hTyped.symm⟩
          have hAnswer := @findByEmail_of_exec letters i (.findByEmail typed) reply _ _ (.ok found)
            typed found hExec rfl
          exact ⟨row, hAnswer.symm.trans hLookup, hHash⟩
      | tail _ hOld => exact hFound.asked j hLate typed found hTyped hOld
    · exact hFound.asked j hLate typed found hTyped hMem

/-- Every later login finds a stored user, with the hash that is stored. -/
theorem Users.Accountable.found_later {later : List UserRequest} {id : String} {user : User}
    (hNow : m.Accountable letters verifyPassword audit requests)
    (hUser : m.world.users.byId.get? id = some user)
    (hMore : (userSystem letters verifyPassword audit).Takes (fun _ _ _ => True) m later m') :
    m'.Accountable letters verifyPassword audit (requests ++ later) ∧
      m'.Found letters requests.length user.email user.passwordHash := by
  have hStart : m.Found letters requests.length user.email user.passwordHash := by
    refine ⟨⟨id, user, hUser, rfl, rfl⟩, ?_⟩
    intro i hLate typed found _ hAsked
    have hNothing : userPastOf i m.world.trace = [] :=
      hNow.served.each.unused i (hNow.served.taken ▸ hLate)
    rw [hNothing] at hAsked
    cases hAsked
  apply hMore.invariant (P := fun later (m' : Users) =>
    m'.Accountable letters verifyPassword audit (requests ++ later) ∧
      m'.Found letters requests.length user.email user.passwordHash)
  · intro later m label m' _ hStep hBefore
    rw [← List.append_assoc]
    exact ⟨hBefore.1.step hStep, hBefore.2.step hBefore.1 hStep⟩
  · rw [List.append_nil]
    exact ⟨hNow, hStart⟩

end step

/-- However calls interleave: only valid addresses are stored. A login that succeeds has
a password that the hash stored for the user accepts, and a registration of the address made
that hash of its own password. And once a registration has succeeded, with the hash that is
stored, a later login to its address fails only if that hash does not accept the password. -/
theorem logins_by_password (letters : LetterCase) (verifyPassword : String → String → Bool)
    (audit : Bool) {requests : List UserRequest} {m : Users}
    (hRun : (userSystem letters verifyPassword audit).Takes (fun _ _ _ => True)
      (Machine.start .empty) requests m) :
    (∀ user ∈ m.world.users.byId.rows, EMAIL_RE user.email = true) ∧
    (∀ (i : Nat) (email password : String) t result,
      requests[i]? = some (.login email password) → m.tasks[i]? = some t →
      t.prog = .ret (.ok result) → ∃ (j : Nat) (input : RegisterInput) (user stored : User),
        requests[j]? = some (.register input) ∧
        addressOf letters input.email = addressOf letters email ∧
        (userPastOf j m.world.trace).Hashed input.password user.passwordHash ∧
        verifyPassword password user.passwordHash = true ∧ user.email = addressOf letters email ∧
        m.world.users.byId.get? user.id = some stored ∧ stored.email = user.email ∧
        stored.passwordHash = user.passwordHash ∧
        result = .loggedIn (toPublicUser user) user.apiKey) ∧
    ∀ (j : Nat) (input : RegisterInput) t result, requests[j]? = some (.register input) →
      m.tasks[j]? = some t → t.prog = .ret (.ok result) →
      ∃ hash, (userPastOf j m.world.trace).Hashed input.password hash ∧
        (∃ user ∈ m.world.users.byId.rows, user.email = addressOf letters input.email ∧
          user.passwordHash = hash) ∧
        ∀ (later : List UserRequest) (m' : Users) (k : Nat) (email password : String) e,
          (userSystem letters verifyPassword audit).Takes (fun _ _ _ => True) m later m' →
          later[k]? = some (.login email password) →
          addressOf letters email = addressOf letters input.email →
          m'.rejection (requests.length + k) = some e → verifyPassword password hash = false := by
  have hNow := accountable_of_takes hRun
  refine ⟨?_, ?_, ?_⟩
  · intro user hUser
    obtain ⟨-, -, -, -, hValid, -⟩ := hNow.credited.rows user.id user (Table.get?_of_mem hUser)
    exact hValid
  · intro i email password t result hRequest ht hProg
    obtain ⟨request, hRequest', hDecides⟩ := hNow.guarded.returned ht hProg
    obtain rfl := Option.some.inj (hRequest.symm.trans hRequest')
    obtain ⟨user, hDid, hVerified, rfl⟩ := hDecides
    obtain ⟨e, hMem, -, hDone⟩ := exists_of_mem_ownCalls hDid
    obtain ⟨⟨j, input, hRegister, hEmail, -, hHash⟩, hLower, stored, hStored, hSameEmail, hSameHash⟩ :=
      hNow.credited.found e hMem _ user hDone
    rw [lower_addressOf] at hLower
    exact ⟨j, input, user, stored, hRegister, hEmail.symm.trans hLower, hHash, hVerified, hLower,
      hStored, hSameEmail, hSameHash, rfl⟩
  · intro j input t result hRequest ht hProg
    obtain ⟨request, hRequest', hDecides⟩ := hNow.guarded.returned ht hProg
    obtain rfl := Option.some.inj (hRequest.symm.trans hRequest')
    obtain ⟨x, saved, hDid, hEmail, hHash⟩ := hDecides
    obtain ⟨e', hMem, -, hDone⟩ := exists_of_mem_ownCalls hDid
    obtain ⟨user, hUser, hUserEmail, hUserHash⟩ := hNow.stored hMem (by rw [hDone]; rfl)
    refine ⟨saved.passwordHash, hHash,
      ⟨user, Table.mem_of_get? hUser, hUserEmail.trans hEmail, hUserHash⟩, ?_⟩
    intro later m' k login password e hMore hLogin hSame hRejected
    obtain ⟨hThen, hFound⟩ := hNow.found_later hUser hMore
    rw [hUserEmail.trans hEmail, hUserHash] at hFound
    obtain ⟨t', ht', hProg'⟩ := exists_of_rejection hRejected
    obtain ⟨request, hMine, hDecides⟩ := hThen.guarded.returned ht' hProg'
    rw [List.getElem?_append_right (Nat.le_add_right _ k), Nat.add_sub_cancel_left, hLogin] at hMine
    cases hMine
    obtain ⟨found, hAsked, hRefused⟩ := hDecides
    obtain ⟨user, hUser, hUserHash⟩ :=
      hFound.asked _ (Nat.le_add_right _ k) _ found ((lower_addressOf login).trans hSame) hAsked
    rw [← hUserHash]
    exact hRefused user hUser

namespace Sample

/-- The one hash that is drawn here accepts the one password that is registered. -/
def accepts (password hash : String) : Bool :=
  password = "password" && hash = "salt:hash"

abbrev lockedSystem := userSystem asciiLetters accepts false

/-- A registration, and a login to it. -/
def joins : List (Label UserReply UserRequest) :=
  enrolls 0 "A@x.co" "u1" "a" ++ [.step 0 .normal]

def signsIn (task : Nat) (password : String) : List (Label UserReply UserRequest) :=
  [.spawn (.login " a@X.co" password), .step task .normal]

end Sample

/-- The password of the registration opens the account, and another one does not. -/
theorem logins_by_password_sample :
    (∃ (m : Users) (hash : String),
      Sample.lockedSystem.Takes (fun _ _ _ => True) (Machine.start .empty)
        [Sample.anyone "A@x.co", .login " a@X.co" "password"] m ∧ m.rejection 1 = none ∧
      (userPastOf 0 m.world.trace).Hashed "password" hash ∧
      Sample.accepts "password" hash = true) ∧
    ∃ (m m' : Users) (e : UserError) (hash : String),
      Sample.lockedSystem.Takes (fun _ _ _ => True) (Machine.start .empty)
        [Sample.anyone "A@x.co"] m ∧
      Sample.lockedSystem.Takes (fun _ _ _ => True) m [.login " a@X.co" "guess"] m' ∧
      m'.rejection 1 = some e ∧ (userPastOf 0 m.world.trace).Hashed "password" hash ∧
      Sample.accepts "guess" hash = false := by
  constructor
  · obtain ⟨requests, m, hRun, hCheck⟩ := System.exists_takes Sample.lockedSystem (fun _ _ _ => true)
      (Machine.start .empty) (Sample.joins ++ Sample.signsIn 1 "password")
      (fun run => run.1 = [Sample.anyone "A@x.co", .login " a@X.co" "password"] &&
        run.2.returned 1 && (run.2.rejection 1).isNone)
      (by decide +kernel)
    simp only [Bool.and_eq_true, decide_eq_true_eq] at hCheck
    obtain ⟨⟨rfl, hReturned⟩, hNone⟩ := hCheck
    have hTakes := hRun.mono fun _ _ _ _ => trivial
    obtain ⟨t, outcome, ht, hProg⟩ := Machine.returned_iff.mp hReturned
    cases outcome with
    | error e => simp [Machine.rejection, ht, hProg] at hNone
    | ok result =>
        obtain ⟨j, input, user, stored, hRequest, -, hMade, hAccepted, -⟩ :=
          (logins_by_password Sample.asciiLetters Sample.accepts false hTakes).2.1 1 _ _ t result rfl
            ht hProg
        refine ⟨m, user.passwordHash, hTakes, Option.isNone_iff_eq_none.mp hNone, ?_, hAccepted⟩
        cases j with
        | zero =>
            cases hRequest
            exact hMade
        | succ j => cases j <;> cases hRequest
  · obtain ⟨requests, m, hRun, hCheck⟩ := System.exists_takes Sample.lockedSystem (fun _ _ _ => true)
      (Machine.start .empty) Sample.joins
      (fun run => run.1 = [Sample.anyone "A@x.co"] && run.2.returned 0 &&
        (run.2.rejection 0).isNone &&
        (Sample.lockedSystem.take (fun _ _ _ => true) [] run.2 (Sample.signsIn 1 "guess")).any
          fun late => late.1 = [.login " a@X.co" "guess"] && (late.2.rejection 1).isSome)
      (by decide +kernel)
    simp only [Bool.and_eq_true, decide_eq_true_eq] at hCheck
    obtain ⟨⟨⟨rfl, hReturned⟩, hNone⟩, hLate⟩ := hCheck
    obtain ⟨⟨later, m'⟩, hTake, hLate⟩ := (Option.any_eq_true _ _).mp hLate
    simp only [Bool.and_eq_true, decide_eq_true_eq] at hLate
    obtain ⟨rfl, hRejected⟩ := hLate
    obtain ⟨e, hRejected⟩ := Option.isSome_iff_exists.mp hRejected
    have hTakes := hRun.mono fun _ _ _ _ => trivial
    obtain ⟨t, outcome, ht, hProg⟩ := Machine.returned_iff.mp hReturned
    cases outcome with
    | error e => simp [Machine.rejection, ht, hProg] at hNone
    | ok result =>
        obtain ⟨hash, hMade, -, hLogins⟩ :=
          (logins_by_password Sample.asciiLetters Sample.accepts false hTakes).2.2 0 _ t result rfl ht
            hProg
        have hMore := (System.takes_of_take .start hTake).mono fun _ _ _ _ => trivial
        exact ⟨m, m', e, hash, hTakes, hMore, hRejected, hMade,
          hLogins _ m' 0 _ _ e hMore rfl (by decide +kernel) hRejected⟩

end VpnPayment
