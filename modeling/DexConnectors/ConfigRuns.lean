import DexConnectors.ConfigGo
import DexConnectors.ConfigPython
/-!
# ConfigRuns — revision history of the Go and Python configuration stores

The guarantees hold in every run of the Python store, and in every run of the Go store whose settings nest at most 9997
levels deep.  Between 9998 and 10000 levels the Go store writes a document that it does not read back (`deep_unread`).
-/
namespace Dex
namespace ConfigStore

open Lib Lib.Store

open Json

/-- `{"":[[…]]}` with `n` brackets. -/
def deepTokens (n : Nat) : List Token :=
  [.punct 0x7B, .string [], .punct 0x3A] ++ List.replicate n (.punct 0x5B) ++ List.replicate n (.punct 0x5D) ++ [.punct 0x7D]

def deepSettings (n : Nat) : Bytes := render (deepTokens n)

theorem run_open (limit : Nat) (rest : List Token) : ∀ (n : Nat) (stack : List Bool) (e : Expect), e = .value ∨ e = .item →
    Scan.run limit ⟨stack, e⟩ (List.replicate (n + 1) (.punct 0x5B) ++ rest) =
      if stack.length + n < limit then Scan.run limit ⟨List.replicate (n + 1) false ++ stack, .item⟩ rest else none
  | 0, stack, e, he => by
    have hstep : Scan.step limit ⟨stack, e⟩ (.punct 0x5B) =
        if stack.length < limit then some ⟨false :: stack, .item⟩ else none := by
      rcases he with rfl | rfl <;> rfl
    show (Scan.step limit ⟨stack, e⟩ (.punct 0x5B)).bind _ = _
    rw [hstep, Nat.add_zero]
    by_cases h : stack.length < limit
    · rw [if_pos h, if_pos h]
      rfl
    · rw [if_neg h, if_neg h]
      rfl
  | n + 1, stack, e, he => by
    have hstep : Scan.step limit ⟨stack, e⟩ (.punct 0x5B) =
        if stack.length < limit then some ⟨false :: stack, .item⟩ else none := by
      rcases he with rfl | rfl <;> rfl
    show (Scan.step limit ⟨stack, e⟩ (.punct 0x5B)).bind _ = _
    rw [hstep]
    by_cases h : stack.length < limit
    · rw [if_pos h]
      show Scan.run limit ⟨false :: stack, .item⟩ (List.replicate (n + 1) (.punct 0x5B) ++ rest) = _
      rw [run_open limit rest n (false :: stack) .item (.inr rfl), List.length_cons]
      have hstack : List.replicate (n + 1) false ++ false :: stack = List.replicate (n + 1 + 1) false ++ stack := by
        rw [List.replicate_succ' (n := n + 1)]
        simp
      rw [hstack]
      by_cases h' : stack.length + (n + 1) < limit
      · rw [if_pos h', if_pos (by omega)]
      · rw [if_neg h', if_neg (by omega)]
    · rw [if_neg h, if_neg (by omega)]
      rfl

theorem run_close (limit : Nat) (stack : List Bool) (rest : List Token) : ∀ (n : Nat) (e : Expect), e = .item ∨ e = .more →
    Scan.run limit ⟨List.replicate (n + 1) false ++ stack, e⟩ (List.replicate (n + 1) (.punct 0x5D) ++ rest) =
      Scan.run limit ⟨stack, .more⟩ rest
  | 0, e, he => by rcases he with rfl | rfl <;> rfl
  | n + 1, e, he => by
    have hstep : Scan.step limit ⟨List.replicate (n + 1 + 1) false ++ stack, e⟩ (.punct 0x5D) =
        some ⟨List.replicate (n + 1) false ++ stack, .more⟩ := by
      rcases he with rfl | rfl <;> rfl
    show (Scan.step limit ⟨List.replicate (n + 1 + 1) false ++ stack, e⟩ (.punct 0x5D)).bind _ = _
    rw [hstep]
    exact run_close limit stack rest n .more (.inr rfl)

theorem accepts_deepTokens (limit n : Nat) (hlimit : 0 < limit) :
    accepts limit (deepTokens (n + 1)) = decide (n + 1 < limit) := by
  have hrun : Scan.run limit ⟨[], .value⟩ (deepTokens (n + 1)) = if n + 1 < limit then some ⟨[], .more⟩ else none := by
    have hopen : Scan.run limit ⟨[], .value⟩ (deepTokens (n + 1)) = Scan.run limit ⟨[true], .value⟩
        (List.replicate (n + 1) (.punct 0x5B) ++ (List.replicate (n + 1) (.punct 0x5D) ++ [.punct 0x7D])) := by
      have hbegin : Scan.step limit ⟨[], .value⟩ (.punct 0x7B) = some ⟨[true], .name⟩ := if_pos hlimit
      unfold deepTokens
      rw [List.append_assoc, List.append_assoc]
      show (Scan.step limit ⟨[], .value⟩ (.punct 0x7B)).bind _ = _
      rw [hbegin]
      rfl
    rw [hopen, run_open limit _ n [true] .value (.inl rfl), List.length_singleton, Nat.add_comm 1 n]
    by_cases h : n + 1 < limit
    · rw [if_pos h, if_pos h, run_close limit [true] _ n .item (.inl rfl)]
      rfl
    · rw [if_neg h, if_neg h]
  unfold accepts
  rw [hrun]
  by_cases h : n + 1 < limit
  · rw [if_pos h, decide_eq_true h]
    rfl
  · rw [if_neg h, decide_eq_false h]
    rfl

theorem lex_deepSettings (n : Nat) : lex (deepSettings (n + 1)) = some (deepTokens (n + 1)) := by
  refine lex_render (fun t ht => ?_) ?_
  · unfold deepTokens at ht
    simp only [List.mem_append, List.mem_cons, List.mem_replicate, List.not_mem_nil, or_false] at ht
    rcases ht with (((rfl | rfl | rfl) | ⟨-, rfl⟩) | ⟨-, rfl⟩) | rfl
    · exact rfl
    · exact Body.nil
    all_goals exact rfl
  · have haccepts : accepts (n + 2) (deepTokens (n + 1)) = true := by
      rw [accepts_deepTokens _ _ (by omega)]
      exact decide_eq_true (by omega)
    exact separated_of_accepts haccepts

/-- **Nested settings are accepted exactly within the limit.** -/
theorem parse_deepSettings (limit n : Nat) (hlimit : 0 < limit) :
    parse limit (deepSettings (n + 1)) = if n + 1 < limit then some (deepTokens (n + 1)) else none := by
  unfold parse
  rw [lex_deepSettings]
  simp only [accepts_deepTokens limit n hlimit, decide_eq_true_eq]

/-! ## A document that is not read back -/

def sampleScope : Wire.Scope := ⟨"project", "live"⟩

def sampleGoStore : Go.ConfigurationStore := ⟨sampleScope, "projects/project/live", by decide⟩

def sampleNet : Go.Net := ⟨fun _ => none, fun _ => none⟩

def sampleDigest : String := "e3b0c44298fc1c149afbf4c8996fb92427ae41e4649b934ca495991b7852b855"

def sampleGo (settings : Bytes) : Go.Configuration :=
  ⟨"", ⟨"", ""⟩, 0, some [⟨"slack", "main", "connectors/slack", "slack", "", "", settings⟩], none, none, ⟨[], Environment.sorted_nil⟩, none⟩

def sampleGoDialect : Dialect Go.Configuration Go.Configuration Go.Configuration :=
  Go.dialect sampleNet sampleGoStore (fun _ => sampleDigest)

theorem validate_sampleGo {settings : Bytes} (h : Go.isJSONObject settings = true) :
    Go.validateConfiguration sampleNet (Go.assigned sampleGoStore 0 (sampleGo settings)) = .ok () := by
  have hid : Go.regexpConnectorID "slack" = true := by decide
  have hconnection : Go.ConnectionConfiguration.isInvalid
      ⟨"slack", "main", "connectors/slack", "slack", "", "", settings⟩ = false := by
    simp [Go.ConnectionConfiguration.isInvalid, hid, h]
  have henvironment : Go.validateEnvironmentReferences (Go.assigned sampleGoStore 0 (sampleGo settings)) = .ok () := by
    show (scopePrefix sampleGoStore.scope >>= fun _ => .ok ()) = _
    rw [sampleGoStore.valid]
    rfl
  have hshared : Go.validateSharedConnections sampleNet (Go.assigned sampleGoStore 0 (sampleGo settings)) = .ok () := rfl
  have hentries : Go.validateEntries [⟨"slack", "main", "connectors/slack", "slack", "", "", settings⟩] [] [] = .ok () := by
    simp [Go.validateEntries, validateEach, hconnection]
    rfl
  unfold Go.validateConfiguration
  rw [henvironment, hshared]
  exact hentries

theorem assign_sampleGo {settings compacted : Bytes} (hobject : Go.isJSONObject settings = true)
    (hcompact : compact Go.maxNestingDepth settings = some compacted) :
    Go.assign sampleNet sampleGoStore 0 (sampleGo settings) =
      .ok (Go.assigned sampleGoStore 0 (sampleGo settings), Go.assigned sampleGoStore 0 (sampleGo compacted)) := by
  have hmarshal : Go.marshal (Go.assigned sampleGoStore 0 (sampleGo settings)) =
      some (Go.assigned sampleGoStore 0 (sampleGo compacted)) := by
    simp [Go.marshal, Go.marshalSlice, Go.marshalEach, Go.assigned, sampleGo, hcompact]
    rfl
  unfold Go.assign Go.encode
  rw [validate_sampleGo hobject, hmarshal]
  rfl

def firstVersion {X : Type} (contents : X) : Version X Unit := ⟨"v1", "e1", contents, ()⟩

theorem addable_first {I D X : Type} (d : Dialect I D X) (contents : X) :
    Addable d () contents (fun _ => []) (firstVersion contents) :=
  ⟨⟨by simp [firstVersion], by simp [firstVersion], fun _ h => (by cases h), fun _ h => (by cases h)⟩,
    by simp [firstVersion], rfl, rfl⟩

/-- No objects, and one call about to be made. -/
def beginning {I D X : Type} [DecidableEq X] (d : Dialect I D X) (call : Call I) :
    Config (Op X) (Ans X Unit) (Except Err (Result D X Unit)) (Objects X Unit) Unit :=
  ⟨fun _ => [], fun _ => (call.method d).run⟩

theorem start_beginning {I D X : Type} [DecidableEq X] (d : Dialect I D X) {meets : Nat → I → Prop} {r : Nat} {input : I}
    (h : meets r input) : Start d meets (fun _ => .write r input) (beginning d (.write r input)) :=
  ⟨wf_empty, rfl, fun _ => rfl, fun _ _ _ heq => (by cases heq; exact h)⟩

/-- The run of one write to an empty store. -/
theorem run_first {I D X : Type} [DecidableEq X] (d : Dialect I D X) {input : I} {doc : D} {contents : X}
    (hcreates : d.creates 0 false = true) (hassign : d.assign 0 input = .ok (doc, contents)) :
    Config.Run step (beginning d (.write 0 input))
      ⟨put (fun _ => []) d.key (firstVersion contents), fun _ => .ret (.ok (.current doc (firstVersion contents)))⟩ :=
  Config.run_alone step () (c := beginning d (.write 0 input))
    (exec_write (returns_write_first rfl hcreates hassign (addable_first d contents)))

/-- Settings that the reader's scanner refuses where the document holds them. -/
theorem unread_of {settings compacted : Bytes} (hobject : Go.isJSONObject settings = true)
    (hcompact : compact Go.maxNestingDepth settings = some compacted) (hnone : parse (Go.maxNestingDepth - 3) settings = none) :
    ∃ c', Config.Run step (beginning sampleGoDialect (.write 0 (sampleGo settings))) c' ∧
      ∃ v, c'.state sampleGoDialect.key = [v] ∧
        decodeConfiguration sampleGoDialect v = .error (.invalid "configuration document identity is invalid") := by
  have hrefused : parse (Go.maxNestingDepth - 3) compacted = none := by
    have := isSome_parse_compact hcompact (Go.maxNestingDepth - 3)
    rw [hnone] at this
    simpa using this
  have hstrict : Go.strictJSON (Go.assigned sampleGoStore 0 (sampleGo compacted)) = none := by
    simp [Go.strictJSON, Go.Configuration.settings, Go.assigned, sampleGo, hrefused]
  refine ⟨_, run_first sampleGoDialect rfl (assign_sampleGo hobject hcompact),
    firstVersion (Go.assigned sampleGoStore 0 (sampleGo compacted)), put_same (fun _ => []) sampleGoDialect.key _, ?_⟩
  unfold decodeConfiguration
  rw [if_neg (by simp [firstVersion])]
  show Go.decodeContents sampleNet sampleGoStore (Go.assigned sampleGoStore 0 (sampleGo compacted)) = _
  unfold Go.decodeContents
  rw [hstrict]

/-- Settings that nest too deep for the reader and not for the writer. -/
theorem unread_deepSettings (n : Nat) (hwrite : n + 1 < Go.maxNestingDepth) (hread : ¬ n + 1 < Go.maxNestingDepth - 3) :
    ∃ c', Config.Run step (beginning sampleGoDialect (.write 0 (sampleGo (deepSettings (n + 1))))) c' ∧
      ∃ v, c'.state sampleGoDialect.key = [v] ∧
        decodeConfiguration sampleGoDialect v = .error (.invalid "configuration document identity is invalid") := by
  have hparse : parse Go.maxNestingDepth (deepSettings (n + 1)) = some (deepTokens (n + 1)) := by
    rw [parse_deepSettings _ _ (by decide), if_pos hwrite]
  have hnone : parse (Go.maxNestingDepth - 3) (deepSettings (n + 1)) = none := by
    rw [parse_deepSettings _ _ (by decide), if_neg hread]
  have hobject : Go.isJSONObject (deepSettings (n + 1)) = true := by
    unfold Go.isJSONObject
    rw [hparse]
    rfl
  have hcompact : compact Go.maxNestingDepth (deepSettings (n + 1)) = some (render ((deepTokens (n + 1)).map Token.escape)) := by
    unfold compact
    rw [hparse]
    rfl
  exact unread_of hobject hcompact hnone

/-- `{}`. -/
def emptyObject : Bytes := [0x7B, 0x7D]

theorem meets_sampleGo : Go.Meets 0 (sampleGo emptyObject) := by
  refine ⟨by decide, fun settings hmem _ => ?_⟩
  have : settings = emptyObject := by simpa [Go.Configuration.settings, sampleGo] using hmem
  rw [this]
  decide

def samplePythonStore : Python.ConfigurationStore := ⟨sampleScope, "projects/project/live", by decide⟩

def sampleBuiltins : Python.Builtins := ⟨fun _ => "", fun _ => none, fun _ => none⟩

def samplePython : Python.Configuration :=
  ⟨⟨"", ""⟩, 0, [⟨"slack", "main", "connectors/slack", "slack", .object [], "", ""⟩], [], [], ⟨[], Environment.sorted_nil⟩, none, ""⟩

def samplePythonWire : Python.ConfigurationWire :=
  ⟨previousConfigurationSchemaVersion, sampleScope, 1,
    [⟨"slack", "main", "connectors/slack", "slack", none, none, .object []⟩], [], [], none, none⟩

def samplePythonDialect : Dialect Python.Configuration Python.Configuration Python.ConfigurationWire :=
  Python.dialect sampleBuiltins samplePythonStore (fun _ => sampleDigest)

end ConfigStore
end Dex
