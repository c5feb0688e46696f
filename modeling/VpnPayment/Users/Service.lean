import Mathlib.Algebra.Ring.Nat
import Mathlib.Data.List.DropRight
import VpnPayment.Async.Requests
import VpnPayment.Async.Tokens
import VpnPayment.Services.World

/-! `UserService` on `MemoryUserRepository`, with the in-memory audit log that the
container gives to both. -/
namespace VpnPayment

open Async Collections

structure User where
  id : String
  email : String
  locale : String
  name : Option String
  passwordHash : String
  apiKey : String
  createdAt : Int
  updatedAt : Int
deriving DecidableEq

/-- The public projection of a user. -/
structure PublicUser where
  id : String
  email : String
  locale : String
  name : Option String
  createdAt : Int
deriving DecidableEq

def toPublicUser (u : User) : PublicUser :=
  ⟨u.id, u.email, u.locale, u.name, u.createdAt⟩

/-- The errors of this service: two classes of `AppError`, and what the repository throws. -/
inductive UserError
  | validation (message : String)
  | authFailed (message : String)
  | plain (message : String)
deriving DecidableEq

/-- The conversion of strings to lower case. Doing it twice is doing it once. -/
structure LetterCase where
  toLowerCase : String → String
  idempotent : ∀ s, toLowerCase (toLowerCase s) = toLowerCase s

/-- The three maps of `MemoryUserRepository`. -/
structure UserStore where
  byId : Table User User.id
  byEmail : Index
  byApiKey : Index

namespace UserStore

def empty : UserStore := ⟨.empty, .empty, .empty⟩

end UserStore

namespace MemoryUserRepository

variable (letters : LetterCase)

def create (s : UserStore) (user : User) : Except UserError (User × UserStore) :=
  let email := letters.toLowerCase user.email
  if s.byEmail.has email then .error (.plain s!"email already registered: {email}")
  else
    let stored := { user with email := email }
    .ok (stored, {
      byId := s.byId.put stored
      byEmail := s.byEmail.put (email, user.id)
      byApiKey := s.byApiKey.put (user.apiKey, user.id) })

def findById (s : UserStore) (id : String) : Option User :=
  s.byId.get? id

def findByEmail (s : UserStore) (email : String) : Option User :=
  (truthy ((s.byEmail.get? (letters.toLowerCase email)).map Prod.snd)).bind (findById s)

def findByApiKey (s : UserStore) (apiKey : String) : Option User :=
  (truthy ((s.byApiKey.get? apiKey).map Prod.snd)).bind (findById s)

def update (s : UserStore) (user : User) : Except UserError (User × UserStore) :=
  match s.byId.get? user.id with
  | none => .error (.plain s!"unknown user: {user.id}")
  | some prev =>
      -- a rotated key stops resolving
      let byApiKey := if prev.apiKey ≠ user.apiKey then s.byApiKey.delete prev.apiKey else s.byApiKey
      .ok (user, {
        byId := s.byId.put user
        byEmail := s.byEmail
        byApiKey := byApiKey.put (user.apiKey, user.id) })

end MemoryUserRepository

structure AuditEvent where
  id : String
  at' : Int
  input : AuditInput
deriving DecidableEq

namespace InMemoryAuditLog

def maxEntries : Nat := 10000

/-- Append an event. The oldest ones are dropped when there are too many. -/
def record (entries : List AuditEvent) (event : AuditEvent) : List AuditEvent :=
  let entries := entries ++ [event]
  entries.drop (entries.length - maxEntries)

end InMemoryAuditLog

structure RegisterInput where
  email : String
  password : String
  locale : Option String
  name : Option String
deriving DecidableEq

/-- The methods of the service that are called. -/
inductive UserRequest
  | register (input : RegisterInput)
  | login (email password : String)
  | authenticate (apiKey : String)
  | rotateApiKey (userId : String)
deriving DecidableEq

inductive UserResult
  | registered (user : PublicUser) (apiKey : String)
  | loggedIn (user : PublicUser) (apiKey : String)
  | authenticated (user : User)
  | rotated (apiKey : String)
deriving DecidableEq

/-- What the service awaits, with the sources of time and randomness. -/
inductive UserCall
  | findById (id : String)
  | findByEmail (email : String)
  | findByApiKey (apiKey : String)
  | create (user : User)
  | update (user : User)
  | now
  | uuid
  | randomHex
  | hashPassword (password : String)
  | auditRecord (input : AuditInput)
deriving DecidableEq

abbrev UserAns : UserCall → Type
  | .findById _ => Option User
  | .findByEmail _ => Option User
  | .findByApiKey _ => Option User
  | .create _ => User
  | .update _ => User
  | .now => Int
  | .uuid => String
  | .randomHex => String
  | .hashPassword _ => String
  | .auditRecord _ => AuditEvent

/-- What the environment decides about one call. -/
inductive UserReply
  | normal
  | text (s : String)
  | time (t : Int)
  | event (id : String) (t : Int)

structure UserEvent where
  task : Nat
  call : UserCall
  answer : Except UserError (UserAns call)

/-- The stored users, the audit log, and the calls settled so far, newest first. -/
structure UserWorld where
  users : UserStore
  audit : List AuditEvent
  trace : List UserEvent

namespace UserWorld

def empty : UserWorld := ⟨.empty, [], []⟩

end UserWorld

namespace UserService

def apiKeyOf (random : String) : String := "vpk_" ++ random

end UserService

/-- What is drawn at random. -/
inductive UserToken
  | id (s : String)
  | apiKey (s : String)
deriving DecidableEq

/-- The token that a settled call drew. -/
def UserCall.drew : (c : UserCall) → Except UserError (UserAns c) → Option UserToken
  | .uuid, .ok s => some (.id s)
  | .randomHex, .ok s => some (.apiKey (UserService.apiKeyOf s))
  | _, _ => none

def UserEvent.draws (e : UserEvent) : Option UserToken :=
  e.call.drew e.answer

/-- The tokens that a call gives to a user. -/
def UserCall.spends : UserCall → List UserToken
  | .create user => [.id user.id, .apiKey user.apiKey]
  | .update user => [.apiKey user.apiKey]
  | _ => []

def UserEvent.spends (e : UserEvent) : List UserToken :=
  e.call.spends

/-- The tokens drawn so far, with the task that drew each. -/
abbrev UserWorld.drawn (w : UserWorld) : List (UserToken × Nat) :=
  drawnBy UserEvent.task UserEvent.draws w.trace

/-- The API keys drawn so far. -/
def UserWorld.issued (w : UserWorld) : List String :=
  w.drawn.filterMap fun
    | (.apiKey s, _) => some s
    | _ => none

section calls

variable (letters : LetterCase)

/-- The effect of a repository call on the stored users. -/
def userEffect : (c : UserCall) →
    Option (UserStore → Except UserError (UserAns c × UserStore))
  | .findById id => some fun s => .ok (MemoryUserRepository.findById s id, s)
  | .findByEmail email => some fun s => .ok (MemoryUserRepository.findByEmail letters s email, s)
  | .findByApiKey apiKey => some fun s => .ok (MemoryUserRepository.findByApiKey s apiKey, s)
  | .create user => some fun s => MemoryUserRepository.create letters s user
  | .update user => some fun s => MemoryUserRepository.update s user
  | _ => none

/-- What the other calls answer. Ids are not empty, and no id or key is drawn twice. -/
def userAnswer (w : UserWorld) : (c : UserCall) → UserReply → Option (UserAns c)
  | .now, .time t => some t
  | .uuid, .text s =>
      if s = "" ∨ .id s ∈ w.drawn.map Prod.fst then none else some s
  | .randomHex, .text s =>
      if .apiKey (UserService.apiKeyOf s) ∈ w.drawn.map Prod.fst then none else some s
  | .hashPassword _, .text s => some s
  | .auditRecord input, .event id t => some ⟨id, t, input⟩
  | _, _ => none

/-- The audit log keeps what is recorded. -/
def auditAfter (entries : List AuditEvent) : (c : UserCall) → UserAns c → List AuditEvent
  | .auditRecord _, event => InMemoryAuditLog.record entries event
  | _, _ => entries

/-- Settle one call of task `i`. -/
def userExec (i : Nat) (c : UserCall) (reply : UserReply) (w : UserWorld) :
    Option (Except UserError (UserAns c) × UserWorld) :=
  match userEffect letters c with
  | some effect =>
      match effect w.users with
      | .ok (a, s) => some (.ok a, { w with users := s, trace := ⟨i, c, .ok a⟩ :: w.trace })
      | .error e => some (.error e, { w with trace := ⟨i, c, .error e⟩ :: w.trace })
  | none => (userAnswer w c reply).map fun a =>
      (.ok a, { w with audit := auditAfter w.audit c a, trace := ⟨i, c, .ok a⟩ :: w.trace })

end calls

/-- An asynchronous method of the service. It takes no locks. -/
abbrev UserAction (α : Type) := Prog Unit UserCall UserAns UserError α

namespace UserService

open Prog (perform)

/-- The characters that `trim` strips and `\s` matches. -/
def isSpace (c : Char) : Bool :=
  let n := c.toNat
  (0x09 ≤ n && n ≤ 0x0D) || n = 0x20 || n = 0xA0 || n = 0x1680 || (0x2000 ≤ n && n ≤ 0x200A) ||
    n = 0x2028 || n = 0x2029 || n = 0x202F || n = 0x205F || n = 0x3000 || n = 0xFEFF

def trim (s : String) : String :=
  String.ofList ((s.toList.dropWhile isSpace).rdropWhile isSpace)

/-- `/^[^\s@]+@[^\s@]+\.[^\s@]+$/`: one `@` with something on both sides, a dot inside
of what follows it, and no white space. -/
def EMAIL_RE (email : String) : Bool :=
  let (lead, rest) := email.toList.span (· ≠ '@')
  match rest with
  | [] => false
  | _ :: domain =>
      lead ≠ [] && !(lead ++ domain).any isSpace && !domain.contains '@' &&
        (domain.drop 1).dropLast.contains '.'

/-- The length of a string in UTF-16 code units. -/
def utf16Length (s : String) : Nat :=
  (s.toList.map fun c => if c.toNat < 0x10000 then 1 else 2).sum

def SUPPORTED_LOCALES : List String := ["zh-CN", "en"]

def localeOf (locale : Option String) : String :=
  match locale with
  | some locale => if locale ≠ "" && SUPPORTED_LOCALES.contains locale then locale else "en"
  | none => "en"

/-- `await this.audit?.record(...)` -/
def record (audit : Bool) (input : AuditInput) : UserAction Unit :=
  if audit then do
    let _ ← perform (UserCall.auditRecord input)
    pure ()
  else pure ()

def invalidCredentials : UserError := .authFailed "invalid credentials"

section methods

variable (letters : LetterCase) (verifyPassword : String → String → Bool) (audit : Bool)

/-- The part of `register` that follows the checks of its input. -/
def enroll (input : RegisterInput) (email : String) : UserAction UserResult := do
  let found ← perform (UserCall.findByEmail email)
  match found with
  | some _ => throw (.validation "email already registered")
  | none => do
      let now ← perform UserCall.now
      let random ← perform UserCall.randomHex
      let id ← perform UserCall.uuid
      let passwordHash ← perform (UserCall.hashPassword input.password)
      let created ← perform (UserCall.create {
        id := id
        email := email
        locale := localeOf input.locale
        name := truthy (input.name.map trim)
        passwordHash := passwordHash
        apiKey := apiKeyOf random
        createdAt := now
        updatedAt := now })
      record audit ⟨"user.registered", some created.id, some created.id, [("email", .text email)]⟩
      pure (.registered (toPublicUser created) (apiKeyOf random))

def register (input : RegisterInput) : UserAction UserResult :=
  let email := letters.toLowerCase (trim input.email)
  if EMAIL_RE email = false then throw (.validation "invalid email address")
  else if input.password = "" || utf16Length input.password < 8 then
    throw (.validation "password must be at least 8 characters")
  else enroll audit input email

/-- Verify email and password. -/
def login (email password : String) : UserAction UserResult := do
  let found ← perform (UserCall.findByEmail (letters.toLowerCase (trim email)))
  match found with
  | none => throw invalidCredentials
  | some user =>
      if verifyPassword password user.passwordHash then do
        record audit ⟨"user.login", some user.id, some user.id, []⟩
        pure (.loggedIn (toPublicUser user) user.apiKey)
      else throw invalidCredentials

/-- Resolve an API key to a user. -/
def authenticate (apiKey : String) : UserAction UserResult :=
  if apiKey = "" then throw (.authFailed "invalid API key")
  else do
    let found ← perform (UserCall.findByApiKey apiKey)
    match found with
    | none => throw (.authFailed "invalid API key")
    | some user => pure (.authenticated user)

/-- Rotate a user's API key. The record that was read is written back with it. -/
def rotateApiKey (userId : String) : UserAction UserResult := do
  let found ← perform (UserCall.findById userId)
  match found with
  | none => throw (.validation s!"unknown user: {userId}")
  | some user => do
      let random ← perform UserCall.randomHex
      let now ← perform UserCall.now
      let _ ← perform (UserCall.update { user with apiKey := apiKeyOf random, updatedAt := now })
      pure (.rotated (apiKeyOf random))

/-- A method, by the request for it. -/
def serve : UserRequest → UserAction UserResult
  | .register input => register letters audit input
  | .login email password => login letters verifyPassword audit email password
  | .authenticate apiKey => authenticate apiKey
  | .rotateApiKey userId => rotateApiKey userId

end methods
end UserService

/-- The service with one repository. -/
def userSystem (letters : LetterCase) (verifyPassword : String → String → Bool) (audit : Bool) :
    System Unit UserCall UserAns UserError UserResult UserWorld UserReply UserRequest where
  exec := userExec letters
  entry := UserService.serve letters verifyPassword audit

abbrev Users := Machine Unit UserCall UserAns UserError UserResult UserWorld

end VpnPayment
