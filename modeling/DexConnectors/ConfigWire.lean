import Mathlib.Data.List.Forall2
import DexConnectors.ConfigModel
import DexConnectors.ConnectionWire
/-!
# ConfigWire — the members of a configuration document

What the three SDKs have in common below the document: the patterns of its identifiers, references to private objects, and
the values of the application environment (`sdkgo/projectconfig/application_environment.go`, `storage.go`,
`sdkpython/.../projectconfig/models.py`, `sdkts/src/projectconfig/model.ts`).  Strings are valid Unicode.
-/
namespace Dex
namespace ConfigStore

open Wire (Scope isHexDigit)

/-! ## Patterns -/

def isLowerLetter (c : Char) : Bool := 'a' ≤ c && c ≤ 'z'

def isUpperLetter (c : Char) : Bool := 'A' ≤ c && c ≤ 'Z'

def isDecimal (c : Char) : Bool := '0' ≤ c && c ≤ '9'

def isAlphanumeric (c : Char) : Bool := isLowerLetter c || isUpperLetter c || isDecimal c

/-- One character of `first`, then between `low` and `high` of `rest`. -/
def matchesName (first rest : Char → Bool) (low high : Nat) (text : String) : Bool :=
  match text.toList with
  | [] => false
  | c :: cs => first c && low ≤ cs.length && cs.length ≤ high && cs.all rest

/-- `^[a-zA-Z0-9][a-zA-Z0-9_-]{0,127}$`. -/
def scopeIdentity : String → Bool := matchesName isAlphanumeric (fun c => isAlphanumeric c || c == '_' || c == '-') 0 127

/-- `^[a-z][a-z0-9-]{1,62}$`. -/
def isConnectorID : String → Bool := matchesName isLowerLetter (fun c => isLowerLetter c || isDecimal c || c == '-') 1 62

/-- `^[A-Z][A-Z0-9_]{0,127}$`. -/
def applicationEnvironmentName : String → Bool :=
  matchesName isUpperLetter (fun c => isUpperLetter c || isDecimal c || c == '_') 0 127

/-- `^[A-Za-z0-9][A-Za-z0-9._:-]{0,127}$`. -/
def sharedConnectionIdentity : String → Bool :=
  matchesName isAlphanumeric (fun c => isAlphanumeric c || c == '.' || c == '_' || c == ':' || c == '-') 0 127

/-- `^[a-f0-9]{32}$`. -/
def applicationSecretID (text : List Char) : Bool := text.length == 32 && text.all isHexDigit

def startsWith (start text : String) : Bool := start.toList.isPrefixOf text.toList

/-- What is left of a text after a start it has. -/
def after (start text : String) : List Char := text.toList.drop start.toList.length

/-- `^sha256:[a-f0-9]{64}$`. -/
def applicationSecretDigest (text : String) : Bool :=
  startsWith "sha256:" text && (after "sha256:" text).length == 64 && (after "sha256:" text).all isHexDigit

/-- The length of the UTF-8 encoding. -/
def byteLength (text : String) : Nat := (text.toList.map Char.utf8Size).sum

def endsWith (ending text : String) : Bool := ending.toList.isSuffixOf text.toList

/-! ## Scopes -/

/-- `Prefix` of a scope. -/
def scopePrefix (scope : Scope) : Except Err String :=
  if !scopeIdentity scope.projectID || (scope.kind != "live" && scope.kind != "preview") then
    .error (.invalid "invalid project configuration scope")
  else .ok ("projects/" ++ scope.projectID ++ "/" ++ scope.kind)

/-- The head of the configuration document of a scope. -/
def configurationKey (scopePath : String) : String := scopePath ++ "/configuration/head"

/-! ## References and values -/

structure ApplicationSecretRef where
  key     : String
  version : String
  digest  : String
  deriving DecidableEq, Repr

structure EnvironmentValue where
  value     : Option String
  secretRef : Option ApplicationSecretRef
  deriving DecidableEq, Repr

/-- The application environment, a map by name. -/
structure Environment where
  entries : List (String × EnvironmentValue)
  sorted  : entries.Pairwise (fun a b => a.1 < b.1)
  deriving DecidableEq

theorem Environment.sorted_nil : ([] : List (String × EnvironmentValue)).Pairwise (fun a b => a.1 < b.1) := .nil

structure CredentialBrokerConfiguration where
  endpoint       : String
  tokenSecretRef : ApplicationSecretRef
  deriving DecidableEq, Repr

def applicationSecretPrefix (scopePath name : String) : String := scopePath ++ "/app-secrets/" ++ name ++ "/"

/-- A key of a private object of this scope and name. -/
def isSecretKey (scopePath name key : String) : Bool :=
  startsWith (applicationSecretPrefix scopePath name) key && applicationSecretID (after (applicationSecretPrefix scopePath name) key)

def credentialBrokerTokenName : String := "DEX_CREDENTIAL_BROKER_TOKEN"

def reservedEnvironmentNames : List String :=
  ["PATH", "HOME", "PORT", "HOST", "NODE_OPTIONS", "SSL_CERT_FILE", "SSL_CERT_DIR", "PUBLIC_BASE_URL", "HTTP_PROXY",
    "HTTPS_PROXY", "ALL_PROXY", "NO_PROXY"]

def reservedEnvironmentPrefixes : List String := ["SUPERVERSE_", "DEX_", "AWS_", "LD_", "GO", "GIT_"]

def isApplicationEnvironmentName (name : String) : Bool :=
  applicationEnvironmentName name && !reservedEnvironmentPrefixes.any (fun start => startsWith start name) &&
    !reservedEnvironmentNames.contains name

/-- At most 32768 bytes of UTF-8 and no NUL. -/
def validEnvironmentValue (value : String) : Bool := byteLength value ≤ 32768 && !value.toList.contains '\x00'

/-! ## Digests -/

theorem utf8Size_of_isHexDigit {c : Char} (h : isHexDigit c = true) : c.utf8Size = 1 := by
  rw [Char.utf8Size_eq_one_iff]
  unfold isHexDigit at h
  simp only [Bool.or_eq_true, Bool.and_eq_true, decide_eq_true_eq, Char.le_def] at h
  rcases h with ⟨-, h⟩ | ⟨-, h⟩
  · exact UInt32.le_trans h (by decide)
  · exact UInt32.le_trans h (by decide)

theorem sum_utf8Size : ∀ {text : List Char}, text.all isHexDigit = true → (text.map Char.utf8Size).sum = text.length
  | [], _ => rfl
  | c :: rest, h => by
    rw [List.all_cons, Bool.and_eq_true] at h
    rw [List.map_cons, List.sum_cons, utf8Size_of_isHexDigit h.1, sum_utf8Size h.2, List.length_cons, Nat.add_comm]

/-- A digest with its algorithm named passes the checks made of one. -/
theorem digest_checks {hex : String} (h : Wire.isDigest hex = true) :
    byteLength ("sha256:" ++ hex) = 71 ∧ startsWith "sha256:" ("sha256:" ++ hex) = true ∧
      applicationSecretDigest ("sha256:" ++ hex) = true := by
  unfold Wire.isDigest at h
  rw [Bool.and_eq_true, beq_iff_eq] at h
  have hstart : startsWith "sha256:" ("sha256:" ++ hex) = true := by
    unfold startsWith
    rw [String.toList_append, List.isPrefixOf_iff_prefix]
    exact List.prefix_append _ _
  have hafter : after "sha256:" ("sha256:" ++ hex) = hex.toList := by
    unfold after
    rw [String.toList_append, List.drop_left]
  refine ⟨?_, hstart, ?_⟩
  · unfold byteLength
    rw [String.toList_append, List.map_append, List.sum_append, sum_utf8Size h.2, h.1]
    decide
  · unfold applicationSecretDigest
    rw [hstart, hafter, h.1, h.2]
    decide

/-! ## Checks in a row -/

theorem forM_eq_ok {ε α : Type} {f : α → Except ε Unit} : ∀ {xs : List α}, xs.forM f = .ok () → ∀ x ∈ xs, f x = .ok ()
  | [], _, _, h => by cases h
  | x :: xs, h, y, hy => by
    obtain ⟨u, hx, hrest⟩ := Lib.bind_eq_ok.1 h
    rcases List.mem_cons.1 hy with rfl | hy
    · exact hx
    · exact forM_eq_ok hrest y hy

theorem mapM_eq_ok {ε α β : Type} {f : α → Except ε β} {g : α → β} : ∀ {xs : List α}, (∀ x ∈ xs, f x = .ok (g x)) →
    xs.mapM f = .ok (xs.map g)
  | [], _ => rfl
  | x :: xs, h => by
    rw [List.mapM_cons, h x List.mem_cons_self, mapM_eq_ok (fun y hy => h y (List.mem_cons_of_mem x hy))]
    rfl

theorem map_eq_of_forall₂ {α β : Type} {R : α → α → Prop} (f : α → β) {xs ys : List α} (h : List.Forall₂ R xs ys)
    (hf : ∀ x y, R x y → f x = f y) : xs.map f = ys.map f := by
  rw [← List.forall₂_eq_eq_eq, List.forall₂_map_left_iff, List.forall₂_map_right_iff]
  exact h.imp hf

/-! ## Documents -/

def configurationSchemaVersion : String := "connectors.dex.dev/project-configuration/v1alpha3"

def previousConfigurationSchemaVersion : String := "connectors.dex.dev/project-configuration/v1alpha2"

/-- The entries of one kind, checked in order: each passes its check and has an identity of its own. -/
def validateEach {α κ : Type} [DecidableEq κ] (isInvalid : α → Bool) (key : α → κ) (message : String) :
    List κ → List α → Except Err Unit
  | _, [] => .ok ()
  | seen, entry :: rest =>
    if isInvalid entry || seen.contains (key entry) then .error (.invalid message)
    else validateEach isInvalid key message (key entry :: seen) rest

theorem validateEach_ok {α κ : Type} [DecidableEq κ] {isInvalid : α → Bool} {key : α → κ} {message : String} :
    ∀ {entries : List α} {seen : List κ}, validateEach isInvalid key message seen entries = .ok () →
      ∀ entry ∈ entries, isInvalid entry = false
  | [], _, _, _, h => by cases h
  | x :: xs, seen, h, entry, hmem => by
    unfold validateEach at h
    split at h
    · cases h
    · rename_i hx
      rw [Bool.or_eq_true, not_or] at hx
      rcases List.mem_cons.1 hmem with rfl | hmem
      · exact Bool.eq_false_iff.2 hx.1
      · exact validateEach_ok h entry hmem

/-- Entries that agree on their check and their identity are accepted alike. -/
theorem validateEach_congr {α κ : Type} [DecidableEq κ] {isInvalid isInvalid' : α → Bool} {key : α → κ} {message : String} :
    ∀ {xs ys : List α} {seen : List κ}, List.Forall₂ (fun x y => isInvalid x = isInvalid' y ∧ key x = key y) xs ys →
      validateEach isInvalid key message seen xs = validateEach isInvalid' key message seen ys
  | [], _, _, h => by
    cases h
    rfl
  | x :: xs, _, seen, h => by
    cases h with
    | @cons _ y _ ys hxy hrest =>
      unfold validateEach
      rw [hxy.1, hxy.2, validateEach_congr hrest]

end ConfigStore
end Dex
