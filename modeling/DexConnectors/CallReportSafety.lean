import DexConnectors.CallReport
/-!
# CallReportSafety — what the call report keeps

`Inv` follows the appends in the order of their writes.  As long as a lock file is removed only by its maker, or after it died,
at most one append is between its lock and its release (`Inv.alone`), so each write finds the document that the one before left
(`Inv.step`).  `call_report_keeps` is the run.
-/
namespace Dex
namespace CallReport

open Lib Lib.Utf8 Lib.Json

/-! ## The document -/

def joined : List ReportedCall → Bytes
  | [] => []
  | [call] => call.marshal
  | call :: rest => call.marshal ++ 0x2C :: joined rest

def document (calls : List ReportedCall) : Bytes := reportOpen ++ (joined calls ++ reportClose)

theorem joined_cons {calls : List ReportedCall} (h : calls ≠ []) (call : ReportedCall) :
    joined (call :: calls) = call.marshal ++ 0x2C :: joined calls := by
  cases calls with
  | nil => exact absurd rfl h
  | cons next rest => rfl

theorem joined_append : ∀ {calls : List ReportedCall}, calls ≠ [] → ∀ call,
    joined (calls ++ [call]) = joined calls ++ 0x2C :: call.marshal
  | [], h, _ => absurd rfl h
  | [_], _, _ => rfl
  | first :: second :: rest, _, call => by
    have ih := joined_append (List.cons_ne_nil second rest) call
    rw [List.cons_append, joined_cons (by simp), ih, joined_cons (List.cons_ne_nil second rest), List.append_assoc]
    rfl

theorem document_ne_nil (calls : List ReportedCall) : document calls ≠ [] := by
  intro h
  have := congrArg List.head? h
  cases this

theorem length_document_ge (calls : List ReportedCall) : 2 ≤ (document calls).length := by
  unfold document
  rw [List.length_append, List.length_append]
  have : reportClose.length = 2 := by decide
  omega

theorem document_eq (calls : List ReportedCall) : document calls = reportOpen ++ joined calls ++ reportClose := by
  unfold document
  rw [List.append_assoc]

theorem length_document_sub (calls : List ReportedCall) : (document calls).length - 2 = (reportOpen ++ joined calls).length := by
  have hclose : reportClose.length = 2 := by decide
  rw [document_eq, List.length_append, hclose, Nat.add_sub_cancel]

/-- Writing the first call. -/
theorem writeAt_first (call : ReportedCall) : writeAt [] 0 (reportOpen ++ call.marshal ++ reportClose) = document [call] := by
  unfold writeAt document joined
  rw [List.take_nil, List.drop_nil, List.append_nil, Nat.zero_sub, List.replicate_zero, List.nil_append, List.nil_append,
    List.append_assoc]

/-- Writing the next call over the close of the document. -/
theorem writeAt_next {calls : List ReportedCall} (h : calls ≠ []) (call : ReportedCall) :
    writeAt (document calls) ((document calls).length - 2) (0x2C :: call.marshal ++ reportClose) = document (calls ++ [call]) := by
  have hclose : reportClose.length = 2 := by decide
  have hgap : (document calls).length - 2 - (document calls).length = 0 := by omega
  have hend : (document calls).drop ((document calls).length - 2 + (0x2C :: call.marshal ++ reportClose).length) = [] := by
    refine List.drop_eq_nil_of_le ?_
    rw [List.length_append, hclose]
    omega
  unfold writeAt
  rw [hgap, hend, List.replicate_zero, List.append_nil, List.append_nil, length_document_sub]
  conv_lhs => rw [document_eq, List.take_left]
  unfold document
  rw [joined_append h, List.append_assoc, List.append_assoc]

theorem drop_document (calls : List ReportedCall) :
    ((document calls).drop ((document calls).length - 2)).take 2 = reportClose := by
  rw [length_document_sub, document_eq, List.drop_left, List.take_of_length_le (by decide)]

/-! ## The document is JSON -/

/-- A field as it is written: a string or a word under its name. -/
def IsField (f : Bytes × Token) : Prop := Body f.1 ∧ ((∃ body, f.2 = .string body ∧ Body body) ∨ f.2 = .literal (ascii "true"))

theorem isField_text (name : String) (value : Bytes) (h : Body (ascii name)) : IsField (text name value) :=
  ⟨h, .inl ⟨_, rfl, body_quote value⟩⟩

theorem isField_textOmitempty (name : String) (value : Bytes) (h : Body (ascii name)) : ∀ f ∈ textOmitempty name value, IsField f := by
  intro f hf
  unfold textOmitempty at hf
  split at hf
  · cases hf
  · rw [List.mem_singleton.1 hf]
    exact isField_text name value h

theorem isField_flagOmitempty (name : String) (value : Bool) (h : Body (ascii name)) : ∀ f ∈ flagOmitempty name value, IsField f := by
  intro f hf
  unfold flagOmitempty at hf
  split at hf
  · rw [List.mem_singleton.1 hf]
    exact ⟨h, .inr rfl⟩
  · cases hf

theorem isField_fields (call : ReportedCall) : ∀ f ∈ call.fields, IsField f := by
  unfold ReportedCall.fields
  rw [List.forall_mem_cons, List.forall_mem_cons, List.forall_mem_append, List.forall_mem_cons, List.forall_mem_append,
    List.forall_mem_append, List.forall_mem_append, List.forall_mem_append]
  refine ⟨isField_text _ _ (body_of_plain (by decide)), isField_text _ _ (body_of_plain (by decide)),
    isField_textOmitempty _ _ (body_of_plain (by decide)), isField_text _ _ (body_of_plain (by decide)),
    isField_textOmitempty _ _ (body_of_plain (by decide)), isField_textOmitempty _ _ (body_of_plain (by decide)),
    isField_flagOmitempty _ _ (body_of_plain (by decide)), isField_flagOmitempty _ _ (body_of_plain (by decide)),
    isField_flagOmitempty _ _ (body_of_plain (by decide))⟩

theorem proper_punct {b : UInt8} (h : isPunct b = true) : (Token.punct b).Proper := h

theorem IsField.proper {f : Bytes × Token} (h : IsField f) : f.2.Proper := by
  rcases h.2 with ⟨body, hf, hbody⟩ | hf
  · rw [hf]
    exact hbody
  · rw [hf]
    exact (by decide : isLiteral (ascii "true") = true)

theorem proper_membersTokens : ∀ {fields : List (Bytes × Token)}, (∀ f ∈ fields, IsField f) → ∀ t ∈ membersTokens fields, t.Proper
  | [], _ => by
    rw [membersTokens, List.forall_mem_singleton]
    exact proper_punct (by decide)
  | [(name, value)], h => by
    have hf := h _ List.mem_cons_self
    rw [membersTokens, List.forall_mem_cons, List.forall_mem_cons, List.forall_mem_cons, List.forall_mem_singleton]
    exact ⟨hf.1, proper_punct (by decide), hf.proper, proper_punct (by decide)⟩
  | (name, value) :: next :: rest, h => by
    rw [List.forall_mem_cons] at h
    rw [membersTokens, List.forall_mem_cons, List.forall_mem_cons, List.forall_mem_cons, List.forall_mem_cons]
    · exact ⟨h.1.1, proper_punct (by decide), h.1.proper, proper_punct (by decide), proper_membersTokens h.2⟩
    · exact List.cons_ne_nil _ _

theorem proper_tokens (call : ReportedCall) : ∀ t ∈ call.tokens, t.Proper :=
  List.forall_mem_cons.2 ⟨proper_punct (by decide), proper_membersTokens (isField_fields call)⟩

theorem reads_field {f : Bytes × Token} (h : IsField f) (n : Nat) (rest : List Token) : Reads n (f.2 :: rest) (fieldTree f.2) rest := by
  rcases h.2 with ⟨body, hf, -⟩ | hf
  · rw [hf]
    exact .string
  · rw [hf]
    exact .literal (by decide)

theorem reads_membersTokens : ∀ {fields : List (Bytes × Token)}, fields ≠ [] → (∀ f ∈ fields, IsField f) → ∀ (n : Nat) (rest : List Token),
    ReadsMembers n (membersTokens fields ++ rest) (fields.map (fun f => (unquote f.1, fieldTree f.2))) rest
  | [], h, _, _, _ => absurd rfl h
  | [(name, value)], _, h, n, rest => .last (reads_field (h _ List.mem_cons_self) n _)
  | (name, value) :: next :: others, _, h, n, rest => by
    rw [List.forall_mem_cons] at h
    exact .more (reads_field h.1 n _) (reads_membersTokens (List.cons_ne_nil _ _) h.2 n rest)

theorem reads_call (call : ReportedCall) (n : Nat) (rest : List Token) : Reads (n + 1) (call.tokens ++ rest) call.tree rest :=
  .object (reads_membersTokens (List.cons_ne_nil _ _) (isField_fields call) n rest)

/-- The calls of a report, and the bracket after them. -/
def callsTokens : List ReportedCall → List Token
  | [] => [.punct 0x5D]
  | [call] => call.tokens ++ [.punct 0x5D]
  | call :: rest => call.tokens ++ .punct 0x2C :: callsTokens rest

theorem render_append (ts us : List Token) : render (ts ++ us) = render ts ++ render us := List.flatMap_append

theorem render_callsTokens : ∀ calls : List ReportedCall, render (callsTokens calls) = joined calls ++ [0x5D]
  | [] => rfl
  | [call] => by
    rw [callsTokens, render_append]
    rfl
  | call :: next :: rest => by
    have ih := render_callsTokens (next :: rest)
    rw [joined_cons (List.cons_ne_nil _ _), List.append_assoc, List.cons_append, ← ih, callsTokens, render_append]
    · rfl
    · exact List.cons_ne_nil _ _

theorem proper_callsTokens : ∀ calls : List ReportedCall, ∀ t ∈ callsTokens calls, t.Proper
  | [] => by
    rw [callsTokens, List.forall_mem_singleton]
    exact proper_punct (by decide)
  | [call] => by
    rw [callsTokens, List.forall_mem_append, List.forall_mem_singleton]
    exact ⟨proper_tokens call, proper_punct (by decide)⟩
  | call :: next :: rest => by
    rw [callsTokens, List.forall_mem_append, List.forall_mem_cons]
    · exact ⟨proper_tokens call, proper_punct (by decide), proper_callsTokens (next :: rest)⟩
    · exact List.cons_ne_nil _ _

theorem reads_callsTokens : ∀ {calls : List ReportedCall}, calls ≠ [] → ∀ (n : Nat) (rest : List Token),
    ReadsItems (n + 1) (callsTokens calls ++ rest) (calls.map ReportedCall.tree) rest
  | [], h, _, _ => absurd rfl h
  | [call], _, n, rest => by
    rw [callsTokens, List.append_assoc]
    exact .last (reads_call call n _)
  | call :: next :: others, _, n, rest => by
    rw [callsTokens, List.append_assoc]
    · exact .more (reads_call call n _) (reads_callsTokens (List.cons_ne_nil next others) n rest)
    · exact List.cons_ne_nil _ _

/-- **A document of calls is the JSON text of its calls.** -/
theorem denotes_document {calls : List ReportedCall} (h : calls ≠ []) : Denotes 3 (document calls) (reportTree calls) := by
  let ts : List Token := .punct 0x7B :: .string (ascii "calls") :: .punct 0x3A :: .punct 0x5B :: (callsTokens calls ++ [.punct 0x7D])
  have hname : Body (ascii "calls") := body_of_plain (by decide)
  have hproper : ∀ t ∈ ts, t.Proper := by
    rw [List.forall_mem_cons, List.forall_mem_cons, List.forall_mem_cons, List.forall_mem_cons, List.forall_mem_append,
      List.forall_mem_singleton]
    exact ⟨proper_punct (by decide), hname, proper_punct (by decide), proper_punct (by decide), proper_callsTokens calls,
      proper_punct (by decide)⟩
  have hrender : render ts = document calls := by
    show render ([.punct 0x7B, .string (ascii "calls"), .punct 0x3A, .punct 0x5B] ++ (callsTokens calls ++ [.punct 0x7D])) = _
    rw [render_append, render_append, render_callsTokens, List.append_assoc]
    rfl
  refine ⟨ts, hrender ▸ spells_render hproper, ?_⟩
  exact .object (.last (.array (reads_callsTokens h 0 [.punct 0x7D])))

/-! ## The invariant -/

section

variable {ι : Type} {call : ι → ReportedCall}

variable (call) in
/-- What an append knows of the report and of the appends that have written, in the order of their writes. -/
def Stage (report : Option Bytes) (written : List ι) (i : ι) : PC → Prop
  | .start | .create _ | .examine _ | .removeStale _ | .wait _ | .openReport => i ∉ written
  | .measure => i ∉ written ∧ report ≠ none
  | .readTail size => i ∉ written ∧ ∃ contents, report = some contents ∧ contents ≠ [] ∧ size = contents.length
  | .write offset entry => i ∉ written ∧ ∃ contents, report = some contents ∧
      writeAt contents offset (entry ++ reportClose) = document ((written ++ [i]).map call) ∧
      (document ((written ++ [i]).map call)).length = offset + (entry ++ reportClose).length
  | .truncate size => i ∈ written ∧ ∃ contents, report = some contents ∧ size = contents.length
  | .release ok => ok = true ∧ i ∈ written
  | .returned ok => ok = true → i ∈ written
  | .killed => True

variable (call) in
/-- The report of the appends that have written. -/
def Contents (report : Option Bytes) (written : List ι) : Prop :=
  match report with
  | none => written = []
  | some contents => contents = [] ∧ written = [] ∨ written ≠ [] ∧ contents = document (written.map call)

variable (call) in
structure Inv (w : World ι) (written : List ι) : Prop where
  nodup    : written.Nodup
  lock     : ∀ i, (w.pc i).holds = true → ∃ file, w.lock = some file ∧ file.maker = i
  stage    : ∀ i, Stage call w.report written i (w.pc i)
  contents : Contents call w.report written
  empty    : w.report = some [] → ∃ i, (w.pc i).holds = true

/-- **At most one append has the lock.** -/
theorem Inv.alone {w : World ι} {written : List ι} (h : Inv call w written) {i j : ι} (hi : (w.pc i).holds = true)
    (hj : (w.pc j).holds = true) : j = i := by
  obtain ⟨file, hfile, rfl⟩ := h.lock i hi
  obtain ⟨file', hfile', rfl⟩ := h.lock j hj
  rw [hfile] at hfile'
  cases hfile'
  rfl

/-- What an append without the lock knows does not depend on the report, nor on another that writes. -/
theorem Stage.other {report report' : Option Bytes} {written written' : List ι} {i : ι} {pc : PC} (h : Stage call report written i pc)
    (hpc : pc.holds = false) (hwritten : ∀ j, j ∈ written → j ∈ written') (hnew : i ∈ written' → i ∈ written) :
    Stage call report' written' i pc := by
  cases pc with
  | start | create | examine | removeStale | wait => exact fun hi => h (hnew hi)
  | openReport | measure | readTail | write | truncate | release => cases hpc
  | returned ok => exact fun hok => hwritten i (h hok)
  | killed => trivial

theorem document_of_ne_nil {written : List ι} {contents : Bytes} (h : Contents call (some contents) written) (hne : contents ≠ []) :
    written ≠ [] ∧ contents = document (written.map call) := h.resolve_left fun hnil => hne hnil.1

variable [DecidableEq ι]

theorem goto_same (w : World ι) (i : ι) (pc : PC) : (w.goto i pc).pc i = pc := if_pos rfl

theorem goto_other (w : World ι) {i j : ι} (pc : PC) (h : j ≠ i) : (w.goto i pc).pc j = w.pc j := if_neg h

/-- An append that goes on, with the lock or without, and leaves the files alone. -/
theorem Inv.goto {w : World ι} {written : List ι} (h : Inv call w written) {i : ι} {pc : PC} (hholds : pc.holds = (w.pc i).holds)
    (hstage : Stage call w.report written i pc) : Inv call (w.goto i pc) written := by
  have hsame : ∀ j, ((w.goto i pc).pc j).holds = (w.pc j).holds := by
    intro j
    by_cases hj : j = i
    · rw [hj, goto_same, hholds]
    · rw [goto_other w pc hj]
  refine ⟨h.nodup, fun j hj => h.lock j (hsame j ▸ hj), fun j => ?_, h.contents, fun hempty => ?_⟩
  · by_cases hj : j = i
    · rw [hj, goto_same]
      exact hstage
    · rw [goto_other w pc hj]
      exact h.stage j
  · obtain ⟨j, hj⟩ := h.empty hempty
    exact ⟨j, (hsame j).trans hj⟩

/-- The append that has the lock goes on with it, and may write. -/
theorem Inv.hold {w : World ι} {written written' : List ι} (h : Inv call w written) {i : ι} {pc : PC} {report : Option Bytes}
    (hi : (w.pc i).holds = true) (hpc : pc.holds = true) (hnodup : written'.Nodup) (hwritten : ∀ j, j ∈ written → j ∈ written')
    (hnew : ∀ j, j ≠ i → j ∈ written' → j ∈ written) (hstage : Stage call report written' i pc)
    (hcontents : Contents call report written') : Inv call { w.goto i pc with report := report } written' := by
  refine ⟨hnodup, fun j hj => ?_, fun j => ?_, hcontents, fun _ => ⟨i, ?_⟩⟩
  · have hji : (w.pc j).holds = true := by
      by_cases hji : j = i
      · rw [hji]
        exact hi
      · exact (congrArg PC.holds (goto_other w pc hji)).symm.trans hj
    exact h.lock j hji
  · show Stage call report written' j ((w.goto i pc).pc j)
    by_cases hji : j = i
    · rw [hji, goto_same]
      exact hstage
    · rw [goto_other w pc hji]
      refine (h.stage j).other ?_ hwritten (hnew j hji)
      rw [Bool.eq_false_iff]
      exact fun hj => hji (h.alone hi hj)
  · show ((w.goto i pc).pc i).holds = true
    rw [goto_same]
    exact hpc

/-- The lock file is gone, and no append that is alive has the lock. -/
theorem Inv.unlock {w : World ι} {written : List ι} (h : Inv call w written) {i : ι} {pc : PC} (hpc : pc.holds = false)
    (hothers : ∀ j, j ≠ i → (w.pc j).holds = false) (hstage : Stage call w.report written i pc) (hempty : w.report ≠ some []) :
    Inv call { w.goto i pc with lock := none } written := by
  have hnone : ∀ j, ((w.goto i pc).pc j).holds = false := by
    intro j
    by_cases hj : j = i
    · rw [hj, goto_same, hpc]
    · rw [goto_other w pc hj, hothers j hj]
  refine ⟨h.nodup, fun j hj => ?_, fun j => ?_, h.contents, fun hnil => absurd hnil hempty⟩
  · exact absurd hj (by rw [show (World.pc _ j).holds = false from hnone j]; decide)
  · show Stage call w.report written j ((w.goto i pc).pc j)
    by_cases hj : j = i
    · rw [hj, goto_same]
      exact hstage
    · rw [goto_other w pc hj]
      exact h.stage j

omit [DecidableEq ι] in
/-- No append that is alive has the lock when there is no lock file. -/
theorem Inv.none_holds {w : World ι} {written : List ι} (h : Inv call w written) (hlock : w.lock = none) (i : ι) :
    (w.pc i).holds = false := by
  rw [Bool.eq_false_iff]
  intro hi
  obtain ⟨file, hfile, -⟩ := h.lock i hi
  rw [hlock] at hfile
  cases hfile

theorem Inv.acquire {w : World ι} {written : List ι} (h : Inv call w written) {i : ι} (hlock : w.lock = none) (hnew : i ∉ written) :
    Inv call { w.goto i .openReport with lock := some ⟨i, w.now⟩ } written := by
  refine ⟨h.nodup, fun j hj => ?_, fun j => ?_, h.contents, fun hnil => ?_⟩
  · have hj' : ((w.goto i .openReport).pc j).holds = true := hj
    by_cases hji : j = i
    · exact ⟨_, rfl, hji.symm⟩
    · rw [goto_other w _ hji, h.none_holds hlock j] at hj'
      cases hj'
  · show Stage call w.report written j ((w.goto i .openReport).pc j)
    by_cases hji : j = i
    · rw [hji, goto_same]
      exact hnew
    · rw [goto_other w _ hji]
      exact h.stage j
  · obtain ⟨j, hj⟩ := h.empty hnil
    rw [h.none_holds hlock j] at hj
    cases hj

variable {lang : ι → Lang}

/-- The report that the append opened, and what it makes of its size. -/
theorem Inv.measure {w : World ι} {written : List ι} (h : Inv call w written) {i : ι} (hpc : w.pc i = .measure) :
    Inv call (advance lang call w i) written := by
  have hstage := h.stage i
  rw [hpc] at hstage
  obtain ⟨hnew, hopened⟩ := hstage
  obtain ⟨contents, hreport⟩ := Option.ne_none_iff_exists'.1 hopened
  have hcontents := h.contents
  rw [hreport] at hcontents
  unfold advance
  rw [hpc]
  dsimp only
  rw [hreport, Option.getD_some]
  by_cases hnil : contents.length = 0
  · rw [if_pos hnil]
    have hempty := List.eq_nil_of_length_eq_zero hnil
    have hwritten : written = [] := by
      rcases hcontents with ⟨-, hw⟩ | ⟨-, hdocument⟩
      · exact hw
      · exact absurd (hdocument.symm.trans hempty) (document_ne_nil _)
    refine h.goto (by rw [hpc]; rfl) ⟨hnew, contents, hreport, ?_, ?_⟩
    · rw [hempty, hwritten]
      exact writeAt_first (call i)
    · rw [hwritten, Nat.zero_add, document_eq]
      rfl
  · rw [if_neg hnil]
    exact h.goto (by rw [hpc]; rfl) ⟨hnew, contents, hreport, fun h => hnil (by rw [h]; rfl), rfl⟩

/-- The document ends as it should, and the next call goes over its end. -/
theorem Inv.readTail {w : World ι} {written : List ι} (h : Inv call w written) {i : ι} {size : Nat} (hpc : w.pc i = .readTail size) :
    Inv call (advance lang call w i) written := by
  have hstage := h.stage i
  rw [hpc] at hstage
  obtain ⟨hnew, contents, hreport, hne, rfl⟩ := hstage
  have hcontents := h.contents
  rw [hreport] at hcontents
  obtain ⟨hwritten, rfl⟩ := document_of_ne_nil hcontents hne
  have hcalls : written.map call ≠ [] := fun hnil => hwritten (List.map_eq_nil_iff.1 hnil)
  have hsize := length_document_ge (written.map call)
  unfold advance
  rw [hpc]
  dsimp only
  rw [hreport, Option.getD_some, if_pos ⟨hsize, drop_document _⟩]
  refine h.goto (by rw [hpc]; rfl) ⟨hnew, _, hreport, ?_, ?_⟩
  · rw [List.map_append, List.map_singleton]
    exact writeAt_next hcalls (call i)
  · rw [List.map_append, List.map_singleton, length_document_sub, document_eq, joined_append hcalls, ← List.length_append,
      List.append_assoc, List.append_assoc, List.append_assoc]

/-- **The write**: the call is added to the document. -/
theorem Inv.write {w : World ι} {written : List ι} (h : Inv call w written) {i : ι} {offset : Nat} {entry : Bytes}
    (hpc : w.pc i = .write offset entry) : Inv call (advance lang call w i) (written ++ [i]) := by
  have hstage := h.stage i
  rw [hpc] at hstage
  obtain ⟨hnew, contents, hreport, hwrite, hlength⟩ := hstage
  have hholds : (w.pc i).holds = true := by rw [hpc]; rfl
  have hnodup : (written ++ [i]).Nodup := by
    rw [List.nodup_append]
    refine ⟨h.nodup, List.nodup_singleton i, fun a ha b hb hab => ?_⟩
    rw [hab, List.mem_singleton.1 hb] at ha
    exact hnew ha
  have hothers : ∀ j, j ≠ i → j ∈ written ++ [i] → j ∈ written := by
    intro j hj hmem
    exact (List.mem_append.1 hmem).resolve_right fun hji => hj (List.mem_singleton.1 hji)
  have hcontents : Contents call (some (document ((written ++ [i]).map call))) (written ++ [i]) :=
    .inr ⟨by simp, rfl⟩
  have hmem : i ∈ written ++ [i] := List.mem_append_right _ (List.mem_singleton_self i)
  unfold advance
  rw [hpc]
  dsimp only
  rw [hreport, Option.getD_some, hwrite]
  cases lang i with
  | go => exact h.hold hholds rfl hnodup (fun _ => List.mem_append_left _) hothers ⟨rfl, hmem⟩ hcontents
  | python =>
    refine h.hold hholds rfl hnodup (fun _ => List.mem_append_left _) hothers ⟨hmem, _, rfl, ?_⟩ hcontents
    rw [hlength]

/-- An append that still waits for the lock. -/
theorem Inv.waits {w : World ι} {written : List ι} (h : Inv call w written) {i : ι} {pc pc' : PC} (hpc : w.pc i = pc)
    (hholds : pc.holds = false) (hholds' : pc'.holds = false) (hstage : Stage call w.report written i pc →
      Stage call w.report written i pc') : Inv call (w.goto i pc') written := by
  refine h.goto (by rw [hpc, hholds, hholds']) (hstage ?_)
  rw [← hpc]
  exact h.stage i

theorem Inv.advance {w : World ι} {written : List ι} (h : Inv call w written) {i : ι} (hok : Orderly w (.advance i)) :
    ∃ written', Inv call (advance lang call w i) written' := by
  have hstage := h.stage i
  cases hpc : w.pc i with
  | start =>
    unfold CallReport.advance
    rw [hpc]
    exact ⟨written, h.waits hpc rfl rfl id⟩
  | create deadline =>
    unfold CallReport.advance
    rw [hpc] at hstage ⊢
    dsimp only
    cases hlock : w.lock with
    | none => exact ⟨written, h.acquire hlock hstage⟩
    | some file => exact ⟨written, h.waits hpc rfl rfl id⟩
  | examine deadline =>
    unfold CallReport.advance
    rw [hpc]
    dsimp only
    cases w.lock with
    | some file =>
      dsimp only
      split
      · exact ⟨written, h.waits hpc rfl rfl id⟩
      · exact ⟨written, h.waits hpc rfl rfl id⟩
    | none =>
      cases lang i with
      | go => exact ⟨written, h.waits hpc rfl rfl id⟩
      | python => exact ⟨written, h.waits hpc rfl rfl id⟩
  | removeStale deadline =>
    rw [hpc] at hstage
    have hnone : ∀ j, (w.pc j).holds = false := by
      intro j
      rw [Bool.eq_false_iff]
      intro hj
      obtain ⟨file, hfile, rfl⟩ := h.lock j hj
      rw [hok deadline hpc file hfile] at hj
      cases hj
    have hempty : w.report ≠ some [] := by
      intro hnil
      obtain ⟨j, hj⟩ := h.empty hnil
      rw [hnone j] at hj
      cases hj
    unfold CallReport.advance
    rw [hpc]
    exact ⟨written, h.unlock rfl (fun j _ => hnone j) hstage hempty⟩
  | wait deadline =>
    rw [hpc] at hstage
    unfold CallReport.advance
    rw [hpc]
    dsimp only
    cases lang i with
    | go =>
      dsimp only
      split
      · exact ⟨written, h.waits hpc rfl rfl fun _ hok => by cases hok⟩
      · exact ⟨written, h.waits hpc rfl rfl id⟩
    | python =>
      dsimp only
      split
      · exact ⟨written, h.waits hpc rfl rfl fun _ hok => by cases hok⟩
      · exact ⟨written, h.waits hpc rfl rfl id⟩
  | openReport =>
    rw [hpc] at hstage
    unfold CallReport.advance
    rw [hpc]
    refine ⟨written, h.hold (by rw [hpc]; rfl) rfl h.nodup (fun _ hj => hj) (fun _ _ hj => hj) ⟨hstage, fun h => by cases h⟩ ?_⟩
    have hcontents := h.contents
    cases hreport : w.report with
    | none =>
      rw [hreport] at hcontents
      exact .inl ⟨rfl, hcontents⟩
    | some contents =>
      rw [hreport] at hcontents
      exact hcontents
  | measure => exact ⟨written, h.measure hpc⟩
  | readTail size => exact ⟨written, h.readTail hpc⟩
  | write offset entry => exact ⟨_, h.write hpc⟩
  | truncate size =>
    rw [hpc] at hstage
    obtain ⟨hmem, contents, hreport, rfl⟩ := hstage
    have hsame : truncateTo contents contents.length = contents := by
      unfold truncateTo
      rw [List.take_length, Nat.sub_self, List.replicate_zero, List.append_nil]
    have hcontents := h.contents
    unfold CallReport.advance
    rw [hpc]
    dsimp only
    rw [hreport, Option.getD_some, hsame]
    rw [hreport] at hcontents
    exact ⟨written, h.hold (by rw [hpc]; rfl) rfl h.nodup (fun _ hj => hj) (fun _ _ hj => hj) ⟨rfl, hmem⟩ hcontents⟩
  | release ok =>
    rw [hpc] at hstage
    obtain ⟨rfl, hmem⟩ := hstage
    have hholds : (w.pc i).holds = true := by rw [hpc]; rfl
    have hempty : w.report ≠ some [] := by
      intro hnil
      have hcontents := h.contents
      rw [hnil] at hcontents
      rcases hcontents with ⟨-, hwritten⟩ | ⟨-, hdocument⟩
      · rw [hwritten] at hmem
        cases hmem
      · exact document_ne_nil _ hdocument.symm
    unfold CallReport.advance
    rw [hpc]
    refine ⟨written, h.unlock rfl (fun j hj => ?_) (fun _ => hmem) hempty⟩
    rw [Bool.eq_false_iff]
    exact fun hj' => hj (h.alone hholds hj')
  | returned ok =>
    unfold CallReport.advance
    rw [hpc]
    exact ⟨written, h⟩
  | killed =>
    unfold CallReport.advance
    rw [hpc]
    exact ⟨written, h⟩

theorem Inv.kill {w : World ι} {written : List ι} (h : Inv call w written) {i : ι} (hok : Orderly w (.kill i)) :
    Inv call (kill w i) written := by
  have hkilled : Inv call (w.goto i .killed) written := by
    refine ⟨h.nodup, fun j hj => ?_, fun j => ?_, h.contents, fun hnil => ?_⟩
    · by_cases hji : j = i
      · rw [hji, goto_same] at hj
        cases hj
      · rw [goto_other w _ hji] at hj
        exact h.lock j hj
    · by_cases hji : j = i
      · rw [hji, goto_same]
        trivial
      · rw [goto_other w _ hji]
        exact h.stage j
    · obtain ⟨j, hj⟩ := h.empty hnil
      by_cases hji : j = i
      · rw [hji] at hj
        exact absurd hnil (hok hj)
      · exact ⟨j, by rw [goto_other w _ hji]; exact hj⟩
  unfold CallReport.kill
  split
  · exact h
  · exact hkilled

/-- **Every step keeps the invariant.** -/
theorem Inv.step {w : World ι} {written : List ι} (h : Inv call w written) {a : Action ι} (hok : Orderly w a) :
    ∃ written', Inv call (act lang call w a) written' := by
  cases a with
  | advance i => exact h.advance hok
  | kill i => exact ⟨written, h.kill hok⟩
  | tick nanoseconds => exact ⟨written, h.nodup, h.lock, h.stage, h.contents, h.empty⟩

omit [DecidableEq ι] in
theorem Start.inv {w : World ι} (h : Start w) : Inv call w [] := by
  refine ⟨List.nodup_nil, fun i hi => ?_, fun i => ?_, ?_, fun hnil => ?_⟩
  · rw [h.pc i] at hi
    cases hi
  · rw [h.pc i]
    exact List.not_mem_nil
  · rw [h.report]
    rfl
  · rw [h.report] at hnil
    cases hnil

omit [DecidableEq ι] in
theorem Inv.keeps {w : World ι} {written : List ι} (h : Inv call w written) : KeepsCalls call w := by
  intro hnone
  refine ⟨written, h.nodup, fun i hi => ?_, ?_⟩
  · have hstage := h.stage i
    rw [hi] at hstage
    exact hstage rfl
  · have hcontents := h.contents
    cases hreport : w.report with
    | none =>
      rw [hreport] at hcontents
      exact hcontents
    | some contents =>
      rw [hreport] at hcontents
      rcases hcontents with ⟨rfl, -⟩ | ⟨hwritten, rfl⟩
      · obtain ⟨i, hi⟩ := h.empty hreport
        rw [hnone i] at hi
        cases hi
      · exact denotes_document fun hnil => hwritten (List.map_eq_nil_iff.1 hnil)

/-- **The call report loses nothing**, whatever the interleaving and whoever is killed, as long as no lock file is taken from an
append that is alive and none dies before the first write. -/
theorem call_report_keeps (lang : ι → Lang) (call : ι → ReportedCall) {w w' : World ι} (hstart : Start w)
    (hrun : Run lang call Orderly w w') : KeepsCalls call w' := by
  have hinv : ∃ written, Inv call w' written := by
    induction hrun with
    | refl => exact ⟨[], hstart.inv⟩
    | tail _ hstep ih =>
      obtain ⟨written, h⟩ := ih
      obtain ⟨a, hok, rfl⟩ := hstep
      exact h.step hok
  obtain ⟨written, h⟩ := hinv
  exact h.keeps

end

/-! ## Runs -/

def newWorld : World Bool := ⟨0, none, none, fun _ => .start⟩

theorem start_newWorld : Start newWorld := ⟨rfl, rfl, fun _ => rfl⟩

/-- One append of Go, the other of Python. -/
def sampleLang : Bool → Lang
  | true => .go
  | false => .python

def sampleCall (i : Bool) : ReportedCall :=
  ⟨if i then ascii "a" else ascii "b", ascii "send", [], ascii "gmail", [], [], false, false, false⟩

def after (actions : List (Action Bool)) : World Bool := actions.foldl (act sampleLang sampleCall) newWorld

/-- The Go append alone. -/
theorem sample_keeps : KeepsCalls sampleCall (after (List.replicate 6 (.advance true))) := by
  have hrun : Run sampleLang sampleCall Orderly newWorld (after (List.replicate 6 (.advance true))) :=
    Relation.ReflTransGen.refl |>.tail ⟨.advance true, fun _ h => PC.noConfusion h, rfl⟩
      |>.tail ⟨.advance true, fun _ h => PC.noConfusion h, rfl⟩ |>.tail ⟨.advance true, fun _ h => PC.noConfusion h, rfl⟩
      |>.tail ⟨.advance true, fun _ h => PC.noConfusion h, rfl⟩ |>.tail ⟨.advance true, fun _ h => PC.noConfusion h, rfl⟩
      |>.tail ⟨.advance true, fun _ h => PC.noConfusion h, rfl⟩
  exact call_report_keeps sampleLang sampleCall start_newWorld hrun

/-- The Go append is about to write when it stops for eleven seconds; the Python append takes its lock and writes; then the Go
append goes on. -/
def overwriting : List (Action Bool) :=
  List.replicate 4 (.advance true) ++ .tick 11000000000 :: List.replicate 10 (.advance false) ++ List.replicate 2 (.advance true)

theorem run_of_actions (actions : List (Action Bool)) : Run sampleLang sampleCall (fun _ _ => True) newWorld (after actions) := by
  induction actions using List.reverseRecOn with
  | nil => exact .refl
  | append_singleton actions a ih =>
    refine ih.tail ⟨a, trivial, ?_⟩
    unfold after
    rw [List.foldl_append]
    rfl

theorem call_overwritten : Start newWorld ∧ Run sampleLang sampleCall (fun _ _ => True) newWorld (after overwriting) ∧
    ¬ KeepsCalls sampleCall (after overwriting) := by
  refine ⟨start_newWorld, run_of_actions overwriting, fun h => ?_⟩
  have hpc : ∀ i, (after overwriting).pc i = .returned true := by decide +kernel
  have hreport : (after overwriting).report = some (document [sampleCall true]) := by decide +kernel
  obtain ⟨written, hnodup, hmem, hcontents⟩ := h fun i => by rw [hpc i]; rfl
  rw [hreport] at hcontents
  have htree := (denotes_document (List.cons_ne_nil _ _)).unique hcontents
  have hitems := congrArg List.length (Tree.array.inj (congrArg Prod.snd (List.cons.inj (Tree.object.inj htree)).1))
  rw [List.length_map, List.length_map, List.length_map] at hitems
  obtain ⟨i, rfl⟩ := List.length_eq_one_iff.1 hitems.symm
  have htrue := List.mem_singleton.1 (hmem true (hpc true))
  have hfalse := List.mem_singleton.1 (hmem false (hpc false))
  rw [← hfalse] at htrue
  cases htrue

end CallReport
end Dex
