import Coriolis.Auth.Ldap

/-!
# Users

Users are looked up in a local file, which is read again for each login, and then in a
directory. Either gives a user roles, which the token of the user carries.
-/

namespace Coriolis.Auth

/-- An entry of the file of local users. A single role stands for a list of it. -/
structure UserEntry where
  enabled : Option Bool
  passwordHash : Option Text
  roles : Option (List String)
  displayName : Option String

def UserEntry.given (entry : UserEntry) : List String := entry.roles.getD ["viewer"]

structure UserInfo where
  username : String
  name : String
  roles : List String
  authSource : String
  deriving DecidableEq

/-- The settings of the manager, read when it is created, and what it calls. -/
structure AuthManager where
  strategy : String
  jwtSecret : Text
  expirationHours : Nat
  localUsersFile : String
  codec : Codec
  /-- Whether a password has a PBKDF2 hash: the password, iterations, salt and hash. -/
  pbkdf2 : Text → Text → Text → Text → Bool
  bcrypt : Text → Text → Bool
  /-- The users that YAML text lists, none if it cannot be read. -/
  loadUsers : Text → List (String × UserEntry)
  ldapBackend : LdapAuthBackend
  directory : LdapAuthBackend.Directory

namespace AuthManager

variable (mgr : AuthManager)

/-- `verify_password`. -/
def verifyPassword (password storedHash : Text) : Bool :=
  if storedHash.isEmpty || password.isEmpty then false
  else if "$pbkdf2-sha256$".toList.isPrefixOf storedHash then
    match storedHash.splitOn '$' with
    | [_, _, iterations, salt, hash] => mgr.pbkdf2 password iterations salt hash
    | _ => false
  else if "$2b$".toList.isPrefixOf storedHash || "$2a$".toList.isPrefixOf storedHash then
    mgr.bcrypt password storedHash
  else if "$plain$".toList.isPrefixOf storedHash then storedHash.drop 7 == password
  else false

/-- `LocalAuthBackend._load_users`, for a file that may not be there. -/
def users (file : Option Text) : List (String × UserEntry) :=
  match file with
  | some text => mgr.loadUsers text
  | none => []

/-- `LocalAuthBackend.authenticate`. -/
def authenticateLocal (file : Option Text) (username : String) (password : Text) :
    Option UserInfo :=
  match (mgr.users file).lookup username with
  | none => none
  | some entry =>
    if entry.enabled.getD true then
      match entry.passwordHash with
      | none => none
      | some hash =>
        if mgr.verifyPassword password hash then
          some ⟨username, entry.displayName.getD username, entry.given, "local"⟩
        else none
    else none

/-- The name and the roles that the directory gives a user with a password. -/
def ldap (username : String) (password : Text) : Option (String × List String) :=
  mgr.ldapBackend.authenticate mgr.directory username password

/-- `AuthManager.authenticate`. -/
def authenticate (file : Option Text) (username : String) (password : Text) : Option UserInfo :=
  if mgr.strategy = "none" then
    some ⟨if username = "" then "admin" else username, "Administrator (NoAuth)", ["admin"], "none"⟩
  else
    let found := if mgr.strategy = "hybrid" ∨ mgr.strategy = "local" then
      mgr.authenticateLocal file username password else none
    match found with
    | some info => some info
    | none =>
      if mgr.strategy = "hybrid" ∨ mgr.strategy = "ldap" then
        (mgr.ldap username password).map fun (name, roles) => ⟨username, name, roles, "ldap"⟩
      else none

/-- The claims of `issue_token`. -/
def claims (now : Nat) (info : UserInfo) (projectId : String) : Claims where
  sub := some info.username
  name := some info.name
  roles := some info.roles
  authSource := some info.authSource
  projectId := some projectId
  iat := some now
  exp := if mgr.expirationHours = 0 then none else some (now + mgr.expirationHours * 3600)

/-- `AuthManager.issue_token`. -/
def issueToken (now : Nat) (info : UserInfo) (projectId : String) : Text :=
  mgr.codec.createToken mgr.jwtSecret (mgr.claims now info projectId)

def Gives (file : Option Text) (user role : String) : Prop :=
  (∃ entry, (mgr.users file).lookup user = some entry ∧ role ∈ entry.given) ∨
    ∃ password name roles, mgr.ldap user password = some (name, roles) ∧ role ∈ roles

variable {mgr} {file : Option Text} {username : String} {password : Text}

lemma authenticateLocal_gives (h : mgr.authenticateLocal file username password = some info) :
    info.username = username ∧ ∀ role ∈ info.roles, mgr.Gives file username role := by
  rw [authenticateLocal] at h
  split at h
  · simp at h
  rename_i entry hentry
  split at h
  · split at h
    · simp at h
    split at h
    · obtain rfl := Option.some.inj h
      exact ⟨rfl, fun role hrole => .inl ⟨entry, hentry, hrole⟩⟩
    · simp at h
  · simp at h

lemma authenticate_gives (hs : mgr.strategy ≠ "none")
    (h : mgr.authenticate file username password = some info) :
    info.username = username ∧ ∀ role ∈ info.roles, mgr.Gives file username role := by
  simp only [authenticate, hs, if_false] at h
  split at h
  · rename_i info' hinfo
    obtain rfl := Option.some.inj h
    split at hinfo
    · exact authenticateLocal_gives hinfo
    · simp at hinfo
  · split at h
    · obtain ⟨⟨name, roles⟩, hldap, rfl⟩ := Option.map_eq_some_iff.mp h
      exact ⟨rfl, fun role hrole => .inr ⟨password, name, roles, hldap, hrole⟩⟩
    · simp at h

/-! ## Locked users -/

/-- The file of local users marks a user `enabled: false`. -/
def Locked (mgr : AuthManager) (file : Option Text) (username : String) : Prop :=
  ∃ entry, (mgr.users file).lookup username = some entry ∧ entry.enabled = some false

lemma Locked.authenticateLocal (h : mgr.Locked file username) :
    mgr.authenticateLocal file username password = none := by
  obtain ⟨entry, hentry, henabled⟩ := h
  simp [AuthManager.authenticateLocal, hentry, henabled]

/-- What is left of a login of a locked user is the answer of the directory. -/
lemma Locked.authenticate (h : mgr.Locked file username) (hs : mgr.strategy ≠ "none") :
    mgr.authenticate file username password =
      if mgr.strategy = "hybrid" ∨ mgr.strategy = "ldap" then
        (mgr.ldap username password).map fun (name, roles) => ⟨username, name, roles, "ldap"⟩
      else none := by
  simp [AuthManager.authenticate, hs, h.authenticateLocal]

/-- A locked user cannot log in with any password exactly if the directory is not asked or does
not know the user: the lock is one of the local file alone. -/
theorem locked_authenticate_iff (h : mgr.Locked file username) (hs : mgr.strategy ≠ "none") :
    (∀ password, mgr.authenticate file username password = none) ↔
      (mgr.strategy ≠ "hybrid" ∧ mgr.strategy ≠ "ldap") ∨
        ∀ password, mgr.ldap username password = none := by
  simp only [h.authenticate hs]
  by_cases hldap : mgr.strategy = "hybrid" ∨ mgr.strategy = "ldap"
  · simp only [hldap, if_true, Option.map_eq_none_iff, ← not_or, not_true, false_or]
  · simp [hldap, ← not_or]

/-- A users file with one user, who is locked. -/
def lockedUsers : Text :=
  ("users:\n  alice:\n    enabled: false\n    password_hash: $plain$secret\n" ++
    "    roles: [viewer]\n").toList

/-- A manager with this file, and a directory in which the user is an administrator. -/
def lockedManager (strategy : String) : AuthManager where
  strategy := strategy
  jwtSecret := []
  expirationHours := 8
  localUsersFile := "/etc/coriolis/users.yaml"
  codec := ⟨fun _ input => input, [], fun _ => [], fun _ => .error "", id, .ok⟩
  pbkdf2 _ _ _ _ := false
  bcrypt _ _ := false
  loadUsers text := if text = lockedUsers then
    [("alice", ⟨some false, some "$plain$secret".toList, some ["viewer"], none⟩)] else []
  ldapBackend := ⟨.dict [("Admins".toList, "admin".toList)], "viewer".toList, List.map Char.toLower⟩
  directory := {
    available := true
    search username := if username = "alice" then
      some ⟨"CN=alice,DC=corp".toList, some (.values ["CN=Admins,DC=corp"]),
        some (.values ["Alice"])⟩ else none
    bind _ password := password = "secret".toList }

lemma lockedManager_locked (strategy : String) :
    (lockedManager strategy).Locked (some lockedUsers) "alice" :=
  ⟨_, rfl, rfl⟩

theorem locked_authenticate_local : (lockedManager "local").Locked (some lockedUsers) "alice" ∧
    ∀ password, (lockedManager "local").authenticate (some lockedUsers) "alice" password = none :=
  ⟨lockedManager_locked "local", (locked_authenticate_iff (lockedManager_locked "local")
    (by decide)).mpr (.inl (by decide))⟩

/-- The directory logs the locked user in, with the roles it gives. -/
theorem locked_user_logs_in : (lockedManager "hybrid").Locked (some lockedUsers) "alice" ∧
    (lockedManager "hybrid").authenticate (some lockedUsers) "alice" "secret".toList =
      some ⟨"alice", "Alice", ["admin"], "ldap"⟩ :=
  ⟨lockedManager_locked "hybrid", by decide +kernel⟩

end AuthManager

end Coriolis.Auth
