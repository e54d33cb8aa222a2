import DexConnectors.LibSegments
import DexConnectors.LocalStoreModel
import DexConnectors.ConnectionGoWire
/-!
# ObjectKeys — the keys of the project's objects (`sdkgo/projectconfig`)

A scope, and what a key identifies in it, are joined with slashes.  Every identifier that its validator admits is a segment of
letters, digits, `-` and `_`, as it stands or in base64url, so that a key says what it identifies.
-/
namespace Dex
namespace ObjectKeys

open Lib Lib.Utf8 ConfigStore

abbrev Scope := Wire.Scope

abbrev ConnectionKey := Connections.ConnectionKey

/-! ## Trigger inboxes -/

structure TriggerInboxKey where
  connectorID    : String
  connectionName : Bytes
  triggerName    : String
  bindingName    : Bytes
  deriving DecidableEq

/-- `^[a-z][A-Za-z0-9]{1,62}$`. -/
def triggerNamePattern : String → Bool := matchesName isLowerLetter isAlphanumeric 1 62

/-- What `NewTriggerInbox` accepts of the connection and the binding. -/
def isTriggerInboxName (name : Bytes) : Bool :=
  trimSpace name == name && name != [] && name.length ≤ 256 && !name.any (fun b => b == 0x00 || b == 0x0D || b == 0x0A)

def isTriggerInboxKey (key : TriggerInboxKey) : Bool :=
  Go.regexpConnectorID key.connectorID && triggerNamePattern key.triggerName &&
    [key.connectionName, key.bindingName].all isTriggerInboxName

def triggerInboxPath (scopePath : String) (key : TriggerInboxKey) : String :=
  scopePath ++ "/trigger-inboxes/" ++ key.connectorID ++ "/" ++ String.ofList (Connections.base64URL key.connectionName) ++ "/" ++
    key.triggerName ++ "/" ++ String.ofList (Connections.base64URL key.bindingName) ++ "/head"

def applicationSecretPath (scopePath name identifier : String) : String := applicationSecretPrefix scopePath name ++ identifier

/-! ## What a key identifies -/

/-- **What a key identifies** within a scope. -/
inductive ObjectKey where
  | connectionHead (key : ConnectionKey)
  | credential (key : ConnectionKey) (digest : String)
  | exchangeResult (key : ConnectionKey) (attemptID : String)
  | triggerInbox (key : TriggerInboxKey)
  | applicationSecret (name identifier : String)
  | configuration
  deriving DecidableEq

/-- What the validators admit.  The 32 digits of `newAttemptID` are one of the attempts that `beginExchange` admits. -/
def ObjectKey.isValid : ObjectKey → Bool
  | .connectionHead key => Connections.isConnectionKey key
  | .credential key digest => Connections.isConnectionKey key && Wire.isDigest digest
  | .exchangeResult key attemptID => Connections.isConnectionKey key && scopeIdentity attemptID
  | .triggerInbox key => isTriggerInboxKey key
  | .applicationSecret name identifier => applicationEnvironmentName name && applicationSecretID identifier.toList
  | .configuration => true

def ObjectKey.path (scopePath : String) : ObjectKey → String
  | .connectionHead key => Connections.connectionHeadPath (Connections.pathOf scopePath key)
  | .credential key digest => Connections.credentialObjectPath (Connections.pathOf scopePath key) digest
  | .exchangeResult key attemptID => Connections.exchangeResultPath (Connections.pathOf scopePath key) attemptID
  | .triggerInbox key => triggerInboxPath scopePath key
  | .applicationSecret name identifier => applicationSecretPath scopePath name identifier
  | .configuration => configurationKey scopePath

/-- A key of a scope. -/
structure ScopedKey where
  scope     : Scope
  scopePath : String
  isScope   : scopePrefix scope = .ok scopePath
  key       : ObjectKey
  isValid   : key.isValid = true

def ScopedKey.path (k : ScopedKey) : String := k.key.path k.scopePath

/-! ## Segments -/

def isKeyCharacter (c : Char) : Bool := isAlphanumeric c || c == '_' || c == '-'

/-- A text between the slashes of a key. -/
structure IsSegment (text : List Char) : Prop where
  ne_nil     : text ≠ []
  characters : ∀ c ∈ text, isKeyCharacter c = true

def ObjectKey.segments : ObjectKey → List (List Char)
  | .connectionHead key => ["connections".toList, key.connectorID.toList, Connections.base64URL key.connectionName, "head".toList]
  | .credential key digest =>
    ["connections".toList, key.connectorID.toList, Connections.base64URL key.connectionName, "credentials".toList, digest.toList]
  | .exchangeResult key attemptID =>
    ["connections".toList, key.connectorID.toList, Connections.base64URL key.connectionName, "exchange-results".toList,
      attemptID.toList]
  | .triggerInbox key =>
    ["trigger-inboxes".toList, key.connectorID.toList, Connections.base64URL key.connectionName, key.triggerName.toList,
      Connections.base64URL key.bindingName, "head".toList]
  | .applicationSecret name identifier => ["app-secrets".toList, name.toList, identifier.toList]
  | .configuration => ["configuration".toList, "head".toList]

def ScopedKey.segments (k : ScopedKey) : List (List Char) :=
  "projects".toList :: k.scope.projectID.toList :: k.scope.kind.toList :: k.key.segments

theorem scopePrefix_ok {scope : Scope} {scopePath : String} (h : scopePrefix scope = .ok scopePath) :
    scopeIdentity scope.projectID = true ∧ (scope.kind = "live" ∨ scope.kind = "preview") ∧
      scopePath = "projects/" ++ scope.projectID ++ "/" ++ scope.kind := by
  unfold scopePrefix at h
  split at h
  · cases h
  next hvalid =>
    cases h
    simp only [Bool.or_eq_true, Bool.not_eq_true', Bool.and_eq_true, bne_iff_ne, ne_eq, not_or, not_and, not_not,
      Bool.not_eq_false] at hvalid
    refine ⟨hvalid.1, ?_, rfl⟩
    by_cases hlive : scope.kind = "live"
    · exact .inl hlive
    · exact .inr (hvalid.2 hlive)

/-- **A key is its segments**, joined. -/
theorem toList_path (k : ScopedKey) : k.path.toList = ['/'].intercalate k.segments := by
  obtain ⟨-, -, hpath⟩ := scopePrefix_ok k.isScope
  unfold ScopedKey.path ScopedKey.segments
  rw [hpath]
  cases k.key with
  | connectionHead key =>
    simp [ObjectKey.path, ObjectKey.segments, Connections.connectionHeadPath, Connections.pathOf, List.intercalate_cons_cons]
  | credential key digest =>
    simp [ObjectKey.path, ObjectKey.segments, Connections.credentialObjectPath, Connections.pathOf, List.intercalate_cons_cons]
  | exchangeResult key attemptID =>
    simp [ObjectKey.path, ObjectKey.segments, Connections.exchangeResultPath, Connections.pathOf, List.intercalate_cons_cons]
  | triggerInbox key =>
    simp [ObjectKey.path, ObjectKey.segments, triggerInboxPath, List.intercalate_cons_cons]
  | applicationSecret name identifier =>
    simp [ObjectKey.path, ObjectKey.segments, applicationSecretPath, applicationSecretPrefix, List.intercalate_cons_cons]
  | configuration =>
    simp [ObjectKey.path, ObjectKey.segments, configurationKey, List.intercalate_cons_cons]

/-! ## Identifiers are segments -/

theorem matchesName_spec {first rest : Char → Bool} {low high : Nat} {text : String} (h : matchesName first rest low high text = true) :
    ∃ c cs, text.toList = c :: cs ∧ first c = true ∧ cs.all rest = true ∧ low ≤ cs.length ∧ cs.length ≤ high := by
  unfold matchesName at h
  split at h
  · cases h
  next c cs htext =>
    simp only [Bool.and_eq_true, decide_eq_true_eq] at h
    exact ⟨c, cs, htext, h.1.1.1, h.2, h.1.1.2, h.1.2⟩

theorem isSegment_of_matchesName {first rest : Char → Bool} {low high : Nat} {text : String}
    (hfirst : ∀ c, first c = true → isKeyCharacter c = true) (hrest : ∀ c, rest c = true → isKeyCharacter c = true)
    (h : matchesName first rest low high text = true) : IsSegment text.toList ∧ text.toList.length ≤ high + 1 := by
  obtain ⟨c, cs, htext, hc, hcs, -, hlength⟩ := matchesName_spec h
  rw [htext]
  refine ⟨⟨List.cons_ne_nil c cs, List.forall_mem_cons.2 ⟨hfirst c hc, fun d hd => hrest d (List.all_eq_true.1 hcs d hd)⟩⟩, ?_⟩
  rw [List.length_cons]
  omega

theorem isKeyCharacter_of_isAlphanumeric {c : Char} (h : isAlphanumeric c = true) : isKeyCharacter c = true := by
  simp [isKeyCharacter, h]

theorem isKeyCharacter_of_isHexDigit {c : Char} (h : Wire.isHexDigit c = true) : isKeyCharacter c = true := by
  unfold Wire.isHexDigit at h
  unfold isKeyCharacter isAlphanumeric isLowerLetter isUpperLetter isDecimal
  simp only [Bool.or_eq_true, Bool.and_eq_true, decide_eq_true_eq] at h ⊢
  rcases h with h | h
  · exact .inl (.inl (.inr h))
  · exact .inl (.inl (.inl (.inl ⟨h.1, Char.le_trans h.2 (by decide)⟩)))

theorem isSegment_projectID {text : String} (h : scopeIdentity text = true) : IsSegment text.toList ∧ text.toList.length ≤ 128 :=
  isSegment_of_matchesName (fun _ => isKeyCharacter_of_isAlphanumeric)
    (fun c hc => by simpa [isKeyCharacter, or_assoc] using hc) h

theorem isSegment_kind {scope : Scope} (h : scope.kind = "live" ∨ scope.kind = "preview") :
    IsSegment scope.kind.toList ∧ scope.kind.toList.length ≤ 7 := by
  rcases h with h | h
  · rw [h]
    exact ⟨⟨by decide, List.all_eq_true.1 (by decide)⟩, by decide⟩
  · rw [h]
    exact ⟨⟨by decide, List.all_eq_true.1 (by decide)⟩, by decide⟩

theorem isSegment_triggerName {text : String} (h : triggerNamePattern text = true) : IsSegment text.toList ∧ text.toList.length ≤ 63 :=
  isSegment_of_matchesName (fun c hc => isKeyCharacter_of_isAlphanumeric (by simp [isAlphanumeric, hc]))
    (fun _ => isKeyCharacter_of_isAlphanumeric) h

theorem isSegment_environmentName {text : String} (h : applicationEnvironmentName text = true) :
    IsSegment text.toList ∧ text.toList.length ≤ 128 :=
  isSegment_of_matchesName (fun c hc => isKeyCharacter_of_isAlphanumeric (by simp [isAlphanumeric, hc]))
    (fun c hc => by
      simp only [Bool.or_eq_true, beq_iff_eq] at hc
      rcases hc with (hc | hc) | hc
      · exact isKeyCharacter_of_isAlphanumeric (by simp [isAlphanumeric, hc])
      · exact isKeyCharacter_of_isAlphanumeric (by simp [isAlphanumeric, hc])
      · simp [isKeyCharacter, hc]) h

theorem isSegment_hex {text : List Char} {n : Nat} (hlength : text.length = n + 1) (hall : text.all Wire.isHexDigit = true) :
    IsSegment text :=
  ⟨fun hnil => (by rw [hnil] at hlength; cases hlength), fun c hc => isKeyCharacter_of_isHexDigit (List.all_eq_true.1 hall c hc)⟩

theorem mem_dropWhile_of_not {p : Char → Bool} {c : Char} : ∀ {text : List Char}, c ∈ text → p c = false → c ∈ text.dropWhile p
  | d :: text, hmem, hc => by
    rw [List.dropWhile_cons]
    split
    next hd =>
      rcases List.mem_cons.1 hmem with rfl | hmem
      · rw [hc] at hd
        cases hd
      · exact mem_dropWhile_of_not hmem hc
    · exact hmem

theorem length_le_byteLength (text : String) : text.toList.length ≤ byteLength text := by
  unfold byteLength
  generalize text.toList = cs
  induction cs with
  | nil => exact Nat.le_refl 0
  | cons c cs ih =>
    rw [List.map_cons, List.sum_cons, List.length_cons]
    have hpos := Char.utf8Size_pos c
    omega

theorem isSegment_connectorID {text : String} (h : Go.regexpConnectorID text = true) :
    IsSegment text.toList ∧ text.toList.length ≤ 63 := by
  unfold Go.regexpConnectorID at h
  split at h
  · cases h
  next c cs htext =>
    split at h
    · cases h
    next hshape =>
      have hall : ∀ d ∈ text.toList, Go.isConnectorCharacter d = true := by
        intro d hd
        by_contra hnot
        have hout := mem_dropWhile_of_not (List.mem_reverse.2 (mem_dropWhile_of_not hd (Bool.eq_false_iff.2 hnot)))
          (Bool.eq_false_iff.2 hnot)
        rw [List.isEmpty_iff.1 h] at hout
        cases hout
      refine ⟨⟨by rw [htext]; exact List.cons_ne_nil c cs, fun d hd => ?_⟩, ?_⟩
      · have hd := hall d hd
        simp only [Go.isConnectorCharacter, isKeyCharacter, isAlphanumeric, Bool.or_eq_true] at hd ⊢
        rcases hd with (hd | hd) | hd
        · exact .inl (.inl (.inl (.inl hd)))
        · exact .inl (.inl (.inr hd))
        · exact .inr hd
      · simp only [Bool.or_eq_true, decide_eq_true_eq, not_or, not_lt] at hshape
        exact Nat.le_trans (length_le_byteLength text) hshape.1.1.2

/-! ## Base64 -/

theorem base64Digit_table : ∀ n : Fin 64, isKeyCharacter (Connections.base64Digit n) = true ∧
    ∀ m : Fin 64, Connections.base64Digit m = Connections.base64Digit n → m = n := by decide

theorem isKeyCharacter_base64Digit {n : Nat} (h : n < 64) : isKeyCharacter (Connections.base64Digit n) = true :=
  (base64Digit_table ⟨n, h⟩).1

theorem base64Digit_injective {m n : Nat} (hm : m < 64) (hn : n < 64) (h : Connections.base64Digit m = Connections.base64Digit n) :
    m = n := congrArg Fin.val ((base64Digit_table ⟨n, hn⟩).2 ⟨m, hm⟩ h)

theorem digits_bounds (a b c : UInt8) : a.toNat / 4 < 64 ∧ a.toNat % 4 * 16 + b.toNat / 16 < 64 ∧
    b.toNat % 16 * 4 + c.toNat / 64 < 64 ∧ c.toNat % 64 < 64 ∧ a.toNat % 4 * 16 < 64 ∧ b.toNat % 16 * 4 < 64 := by
  have ha := a.toNat_lt
  have hb := b.toNat_lt
  have hc := c.toNat_lt
  omega

theorem isKeyCharacter_base64URL : ∀ (bytes : Bytes), ∀ c ∈ Connections.base64URL bytes, isKeyCharacter c = true
  | a :: b :: c :: rest => by
    obtain ⟨h1, h2, h3, h4, -, -⟩ := digits_bounds a b c
    simp only [Connections.base64URL, List.forall_mem_cons]
    exact ⟨isKeyCharacter_base64Digit h1, isKeyCharacter_base64Digit h2, isKeyCharacter_base64Digit h3,
      isKeyCharacter_base64Digit h4, isKeyCharacter_base64URL rest⟩
  | [a, b] => by
    obtain ⟨h1, h2, -, -, -, h6⟩ := digits_bounds a b 0
    simp only [Connections.base64URL, List.forall_mem_cons]
    exact ⟨isKeyCharacter_base64Digit h1, isKeyCharacter_base64Digit h2, isKeyCharacter_base64Digit h6, fun c hc => by cases hc⟩
  | [a] => by
    obtain ⟨h1, -, -, -, h5, -⟩ := digits_bounds a 0 0
    simp only [Connections.base64URL, List.forall_mem_cons]
    exact ⟨isKeyCharacter_base64Digit h1, isKeyCharacter_base64Digit h5, fun c hc => by cases hc⟩
  | [] => fun c hc => by cases hc

theorem length_base64URL : ∀ (bytes : Bytes), (Connections.base64URL bytes).length = (bytes.length * 4 + 2) / 3
  | a :: b :: c :: rest => by
    simp only [Connections.base64URL, List.length_cons, length_base64URL rest]
    omega
  | [a, b] => by simp [Connections.base64URL]
  | [a] => by simp [Connections.base64URL]
  | [] => rfl

/-- Two bytes with the same digits. -/
theorem byte_eq {a b : UInt8} (h : a.toNat = b.toNat) : a = b := UInt8.toNat_inj.1 h

theorem base64URL_injective_of_length : ∀ {x y : Bytes}, x.length = y.length →
    Connections.base64URL x = Connections.base64URL y → x = y
  | a :: b :: c :: rest, a' :: b' :: c' :: rest', hlength, h => by
    simp only [Connections.base64URL, List.cons.injEq] at h
    obtain ⟨h1, h2, h3, h4, hrest⟩ := h
    obtain ⟨b1, b2, b3, b4, -, -⟩ := digits_bounds a b c
    obtain ⟨b1', b2', b3', b4', -, -⟩ := digits_bounds a' b' c'
    have e1 := base64Digit_injective b1 b1' h1
    have e2 := base64Digit_injective b2 b2' h2
    have e3 := base64Digit_injective b3 b3' h3
    have e4 := base64Digit_injective b4 b4' h4
    have hb := b.toNat_lt
    have hb' := b'.toNat_lt
    have hc := c.toNat_lt
    have hc' := c'.toNat_lt
    rw [byte_eq (a := a) (b := a') (by omega), byte_eq (a := b) (b := b') (by omega), byte_eq (a := c) (b := c') (by omega),
      base64URL_injective_of_length (by simpa using hlength) hrest]
  | [a, b], [a', b'], _, h => by
    simp only [Connections.base64URL, List.cons.injEq] at h
    obtain ⟨h1, h2, h3, -⟩ := h
    obtain ⟨b1, b2, -, -, -, b6⟩ := digits_bounds a b 0
    obtain ⟨b1', b2', -, -, -, b6'⟩ := digits_bounds a' b' 0
    have e1 := base64Digit_injective b1 b1' h1
    have e2 := base64Digit_injective b2 b2' h2
    have e3 := base64Digit_injective b6 b6' h3
    have hb := b.toNat_lt
    have hb' := b'.toNat_lt
    rw [byte_eq (a := a) (b := a') (by omega), byte_eq (a := b) (b := b') (by omega)]
  | [a], [a'], _, h => by
    simp only [Connections.base64URL, List.cons.injEq] at h
    obtain ⟨h1, h2, -⟩ := h
    obtain ⟨b1, -, -, -, b5, -⟩ := digits_bounds a 0 0
    obtain ⟨b1', -, -, -, b5', -⟩ := digits_bounds a' 0 0
    have e1 := base64Digit_injective b1 b1' h1
    have e2 := base64Digit_injective b5 b5' h2
    rw [byte_eq (a := a) (b := a') (by omega)]
  | [], [], _, _ => rfl

theorem base64URL_injective {x y : Bytes} (h : Connections.base64URL x = Connections.base64URL y) : x = y := by
  have hlength := congrArg List.length h
  rw [length_base64URL, length_base64URL] at hlength
  exact base64URL_injective_of_length (by omega) h

/-- A name in base64url. -/
theorem isSegment_base64URL {name : Bytes} (hne : name ≠ []) (hlength : name.length ≤ 256) :
    IsSegment (Connections.base64URL name) ∧ (Connections.base64URL name).length ≤ 342 := by
  have hlen := length_base64URL name
  have hpos := List.length_pos_iff.2 hne
  refine ⟨⟨fun hnil => ?_, isKeyCharacter_base64URL name⟩, by omega⟩
  rw [hnil, List.length_nil] at hlen
  omega

end ObjectKeys
end Dex
