import Scoresheet.Proofs.Index
import Scoresheet.Proofs.Scoring.Statistics
import Scoresheet.Proofs.Session.Codec
import Scoresheet.Proofs.Uuid
import Scoresheet.Report.Codec

/-!
# Reports are read back

A report is stored as indented JSON, and comparisons start from the reports that are read back. The
decoder of a report undoes its encoding, record by record, so that what is read is what was stored.

* `Report.Storable` — the reports that can be stored: floats are finite, counts have 64 bits.
* `Report.storable_toJson` — such a report has a JSON text.
* `Report.decodes` — the decoder makes the report of every node that stands for its JSON.
* `Report.decode_pretty` — the text of a report is read as the report.
* `Comparison.Storable`, `Comparison.decodes` — the same of a comparison.

The decoder sees nodes, not texts, so that it is the same whether a report is read from a file or
taken out of an envelope. An infinite float would be written as null, which is no float.
-/

namespace Scoresheet

open Json

/-! ### Identifiers as keys -/

/-- The text of an integer is that of JSON. -/
theorem toList_toString_int (n : ℤ) : (toString n).toList = intText n := by
  obtain ⟨k, rfl⟩ | ⟨k, rfl⟩ : (∃ k : ℕ, n = k) ∨ ∃ k : ℕ, n = Int.negSucc k := by
    cases n <;> simp
  -- An integer that is not negative has no sign, and its digits are those of a natural number.
  · have hnonneg : ¬ (k : ℤ) < 0 := by omega
    rw [intText, if_neg hnonneg]
    exact Nat.toList_repr
  · have hneg : Int.negSucc k < 0 := Int.negSucc_lt_zero k
    have htext : toString (Int.negSucc k) = "-" ++ Nat.repr (k + 1) := rfl
    rw [intText, if_pos hneg, htext, String.toList_append, Nat.toList_repr]
    rfl

theorem Statistics.idOfKey_of_spells (id : Int64) {key : Key} (h : key.Spells (idText id)) :
    idOfKey key = .ok id := by
  have hread := h.integer id.toInt id.le_toInt id.toInt_lt (toList_toString_int id.toInt)
  simp [idOfKey, hread, Except.map]

theorem Statistics.respondentOfKey_of_spells (r : Respondent) {key : Key}
    (h : key.Spells r.name) : respondentOfKey key = .ok r := by
  simp [respondentOfKey, h.text, bind, Except.bind, pure, Except.pure]

theorem decodes_countValue {n : ℕ} (h : n < 2 ^ 64) : Decodes Decoder.count (countValue n) n :=
  decodes_count h

/-- A float that may be missing. -/
theorem decodes_floatOption (x : Option Float) :
    Decodes (Decoder.optional Decoder.float) (floatOption x) x :=
  decodes_optional fun y _ => ⟨decodes_float y, nofun⟩

@[simp] theorem storable_countValue {n : ℕ} : (countValue n).Storable ↔ n < 2 ^ 64 := by
  rw [countValue, Value.storable_int]
  omega

/-! ### Entries -/

@[simp] theorem AnswerKey.storable_toJson (k : AnswerKey) : k.toJson.Storable := by
  simp [toJson]

theorem AnswerKey.decodes (k : AnswerKey) : Decodes decoder k.toJson k := by
  refine decodes_record (fun _ _ => rfl) rfl (by simp) fun r h => ?_
  have hquestion := h.field "question_id" (by simp) (decodes_idValue k.questionId)
  have hanswer := h.field "possible_answer_id" (by simp) (decodes_idValue k.possibleAnswerId)
  simp [hquestion, hanswer, h.build]

namespace Outcome

/-- The fields of a scored outcome. -/
theorem decodes_scored (value : Float) :
    Decodes (fun _ => ofFields .scored) (.object [("value", .float value)]) (scored value) := by
  refine decodes_record (fun _ _ => rfl) rfl (by simp) fun r h => ?_
  have hvalue := h.field "value" (by simp) (decodes_float value)
  simp [hvalue, h.build]

/-- The fields of a failed outcome. -/
theorem decodes_failed (kind : Formula.ErrorKind) (message : String) :
    Decodes (fun _ => ofFields .failed)
      (.object [("kind", .string kind.name), ("message", .string message)])
      (failed kind message) := by
  refine decodes_record (fun _ _ => rfl) rfl (by simp) fun r h => ?_
  have hkind := h.field "kind" (by simp) (decodes_word (Formula.ErrorKind.ofName?_name kind))
  have hmessage := h.field "message" (by simp) (decodes_string message)
  simp [hkind, hmessage, h.build]

section Status

variable {members : List (String × Value)} {nodes : List (Key × Node)}

/-- Members that are no status are put aside, if they can be read whole. -/
theorem splitStatus_append
    (hnodes : List.Forall₂ (fun member node => node.1.Spells member.1 ∧ member.2.Stands node.2)
      members nodes) (hmembers : ∀ member ∈ members, member.1 ≠ "status" ∧ member.2.nesting = 0)
    (status : Option Status) (others rest : List (Key × Node)) :
    splitStatus status others (nodes ++ rest)
      = splitStatus status (nodes.reverse ++ others) rest := by
  induction hnodes generalizing others with
  -- Nothing is left to split, and the members already read stand in reverse order.
  | nil => rfl
  | @cons member node members nodes hhead _ ih =>
    -- The member is no status and holds nothing deeper, so it is kept whole for the fields.
    obtain ⟨⟨hname, hnesting⟩, hrest⟩ := List.forall_mem_cons.1 hmembers
    obtain ⟨key, node⟩ := node
    have htext : key.text = .ok member.1 := hhead.1.text
    have hvalue : node.toValue = .ok member.2 := hhead.2.toValue_of_nesting hnesting
    rw [List.cons_append, splitStatus]
    simp only [htext, hvalue, hname, if_false, bind, Except.bind]
    rw [ih hrest, List.reverse_cons, List.append_assoc]
    rfl

/-- **The status is found among the members** in whatever order they come, and the others are left.
-/
theorem splitStatus_eq_ok {word : String} {status : Status}
    (hword : Status.ofName? word = some status) {fields : List (String × Value)}
    (hfields : ∀ field ∈ fields, field.1 ≠ "status" ∧ field.2.nesting = 0)
    (hperm : members.Perm (("status", .string word) :: fields))
    (hnodes : List.Forall₂ (fun member node => node.1.Spells member.1 ∧ member.2.Stands node.2)
      members nodes) :
    ∃ fields' others, splitStatus none [] nodes = .ok (some status, others) ∧
      fields'.Perm fields ∧ List.Forall₂
        (fun member node => node.1.Spells member.1 ∧ member.2.Stands node.2) fields' others := by
  -- The status may stand anywhere among the members, so they are cut there.
  obtain ⟨before, after, rfl⟩ := List.append_of_mem (hperm.mem_iff.2 List.mem_cons_self)
  have hperm' : (before ++ after).Perm fields :=
    List.Perm.cons_inv (List.perm_middle.symm.trans hperm)
  obtain ⟨first, ⟨key, node⟩, second, rfl, hbefore, ⟨hkey, hstatus⟩, hafter⟩ :=
    exists_forall₂_of_append_cons hnodes
  have hfields' := fun member hmember => hfields member (hperm'.mem_iff.1 hmember)
  obtain ⟨hfirst, hsecond⟩ := List.forall_mem_append.1 hfields'
  refine ⟨before ++ after, first ++ second, ?_, hperm', List.rel_append hbefore hafter⟩
  have htext : key.text = .ok "status" := hkey.text
  have hread : Decoder.ofText Status.ofName? .text node = .ok status :=
    decodes_ofText hword .text node hstatus
  -- The members after the status are read as the others are, with the status already known.
  have hend := splitStatus_append hafter hsecond (some status) (first.reverse ++ []) []
  rw [splitStatus_append hbefore hfirst none [] _, splitStatus]
  simp only [htext, hread, bind, Except.bind, if_true]
  rw [List.append_nil] at hend ⊢
  simpa [splitStatus] using hend

/-- **An outcome is decoded by its status:** the other members are the fields of one. -/
theorem decodes_of_status {word : String} {status : Status}
    (hword : Status.ofName? word = some status) {fields : List (String × Value)}
    (hfields : ∀ field ∈ fields, field.1 ≠ "status" ∧ field.2.nesting = 0) {o : Outcome}
    (h : Decodes (fun _ => ofFields status) (.object fields) o) :
    Decodes decoder (.object (("status", .string word) :: fields)) o := by
  intro origin node hnode
  obtain ⟨position, depth, last, nodes, members, rfl, hperm, hnodes⟩ :=
    Value.stands_object.1 hnode
  obtain ⟨fields', others, hsplit, hperm', hothers⟩ :=
    splitStatus_eq_ok hword hfields hperm hnodes
  have hstands := Value.stands_object.2
    ⟨position, depth, last, others, fields', rfl, hperm', hothers⟩
  simp only [decoder, hsplit, bind, Except.bind, Close.check, Close.fault?]
  exact h origin _ hstands

end Status

/-- **An outcome** is decoded, scored or failed. -/
theorem decodes (o : Outcome) : Decodes decoder o.toJson o := by
  cases o with
  | scored value => exact decodes_of_status rfl (by simp) (decodes_scored value)
  | failed kind message =>
    exact decodes_of_status rfl (by simp) (decodes_failed kind message)

end Outcome

theorem Entry.storable_toJson {e : Entry} (h : ∀ x ∈ e.outcome.value?, x.isFinite = true) :
    e.toJson.Storable := by
  cases houtcome : e.outcome with
  | scored value =>
    rw [houtcome] at h
    simpa [toJson, houtcome, Outcome.toJson, Outcome.value?] using h
  | failed kind message => simp [toJson, houtcome, Outcome.toJson]

theorem Entry.decodes (e : Entry) : Decodes decoder e.toJson e := by
  refine decodes_record (fun _ _ => rfl) rfl (by simp) fun r h => ?_
  have hkey := h.field "key" (by simp) e.key.decodes
  have hquestion := h.field "question" (by simp) (decodes_string e.question)
  have hformula := h.field "formula" (by simp) (decodes_string e.formula)
  have houtcome := h.field "outcome" (by simp) e.outcome.decodes
  simp [hkey, hquestion, hformula, houtcome, h.build]

/-! ### Breakdowns -/

namespace Breakdown

/-- The breakdowns that can be stored: floats are finite, and the count has 64 bits. -/
structure Storable (b : Breakdown) : Prop where
  scored : ∀ x ∈ scoredValues b.entries, x.isFinite = true
  total : ∀ x ∈ b.total, x.isFinite = true
  partialTotal : ∀ x ∈ b.partialTotal, x.isFinite = true
  failed : b.failed < 2 ^ 64

theorem storable_toJson {b : Breakdown} (h : b.Storable) : b.toJson.Storable := by
  have hentries : ∀ e ∈ b.entries, e.toJson.Storable := fun e he =>
    Entry.storable_toJson fun x hx => h.scored x (List.mem_filterMap.2 ⟨e, he, hx⟩)
  have htotal : (floatOption b.total).Storable :=
    storable_ofOption.2 fun x hx => .float (h.total x hx)
  have hpartial : (floatOption b.partialTotal).Storable :=
    storable_ofOption.2 fun x hx => .float (h.partialTotal x hx)
  simpa [toJson, htotal, hpartial] using And.intro hentries h.failed

/-- **A breakdown** is decoded. -/
theorem decodes {b : Breakdown} (hb : b.Storable) : Decodes decoder b.toJson b := by
  refine decodes_record (fun _ _ => rfl) rfl (by simp) fun r h => ?_
  -- One line for each field, read by the decoder of its type.
  have hsession := h.field "session_id" (by simp) (decodes_idValue b.sessionId)
  have hrespondent := h.field "respondent" (by simp)
    (decodes_word (Respondent.ofName?_name b.respondent))
  have haggregation := h.field "aggregation" (by simp)
    (decodes_word (Aggregation.ofName?_name b.aggregation))
  have hentries := h.field "entries" (by simp) (decodes_list fun e (_ : e ∈ b.entries) => e.decodes)
  have htotal := h.fieldOptional "total" (by simp) (decodes_floatOption b.total)
  have hpartial := h.fieldOptional "partial_total" (by simp) (decodes_floatOption b.partialTotal)
  have hfailed := h.field "failed" (by simp) (decodes_countValue hb.failed)
  have hoverflowed := h.fieldOr "overflowed" (by simp) false (decodes_bool b.overflowed)
  simp [Respondent.decoder, Aggregation.decoder, hsession, hrespondent, haggregation, hentries,
    htotal, hpartial, hfailed, hoverflowed, h.build]

end Breakdown

/-! ### Statistics -/

theorem TotalSummary.decodes (t : TotalSummary) : Decodes decoder t.toJson t := by
  refine decodes_record (fun _ _ => rfl) rfl (by simp) fun r h => ?_
  have hmean := h.field "mean" (by simp) (decodes_float t.mean)
  have hmin := h.field "min" (by simp) (decodes_float t.min)
  have hmax := h.field "max" (by simp) (decodes_float t.max)
  simp [hmean, hmin, hmax, h.build]

theorem QuestionStatistics.decodes {q : QuestionStatistics} (hq : q.answers < 2 ^ 64) :
    Decodes decoder q.toJson q := by
  refine decodes_record (fun _ _ => rfl) rfl (by simp) fun r h => ?_
  have hquestion := h.field "question" (by simp) (decodes_string q.question)
  have hanswers := h.field "answers" (by simp) (decodes_countValue hq)
  have hmean := h.field "mean" (by simp) (decodes_float q.mean)
  simp [hquestion, hanswers, hmean, h.build]

theorem CategoryStatistics.decodes {c : CategoryStatistics} (hc : c.sessions < 2 ^ 64) :
    Decodes decoder c.toJson c := by
  refine decodes_record (fun _ _ => rfl) rfl (by simp) fun r h => ?_
  have hsessions := h.field "sessions" (by simp) (decodes_countValue hc)
  have hmean := h.field "mean_total" (by simp) (decodes_float c.meanTotal)
  simp [hsessions, hmean, h.build]

namespace Statistics

/-- The statistics that can be stored: floats are finite, and counts have 64 bits. -/
structure Storable (s : Statistics) : Prop where
  finite : s.Finite
  sessions : s.sessions < 2 ^ 64
  complete : s.complete < 2 ^ 64
  incomplete : s.incomplete < 2 ^ 64
  failed : s.failed < 2 ^ 64
  answersOf : ∀ e ∈ s.perQuestion.entries, e.2.answers < 2 ^ 64
  sessionsOf : ∀ e ∈ s.perCategory.entries, e.2.sessions < 2 ^ 64

/-- **An index** is decoded from a field, in whatever order its entries come. -/
theorem field_index {κ α : Type} [Ord κ] [Std.TransOrd κ] [Std.LawfulEqOrd κ]
    {key : Key → Except Fault κ} {decoder : Decoder α} {name : κ → String} {encode : α → Value}
    {index : Index κ α} {r : Record} {members : List (String × Value)}
    (h : r.Holds Value.Stands members) (field : String)
    (hmember : (field, .object (index.entries.map fun e => (name e.1, encode e.2))) ∈ members)
    (hkey : ∀ (k : κ) (k' : Key), k'.Spells (name k) → key k' = .ok k)
    (hdecodes : ∀ e ∈ index.entries, Decodes decoder (encode e.2) e.2) :
    (r.field field (Decoder.table key decoder)).map Index.ofList = .ok index := by
  obtain ⟨node, hlookup, hnode⟩ := h.lookup hmember
  obtain ⟨entries, hperm, hread⟩ := exists_table hkey hdecodes hnode r.origin
  simp [Record.field, hlookup, hread, Except.map, Index.ofList_eq_of_perm hperm]

/-- **The table of an index** can be stored if its values can. -/
theorem storable_index {κ α : Type} [Ord κ] [Std.TransOrd κ] {name : κ → String}
    {encode : α → Value} (index : Index κ α) (hname : Function.Injective name)
    (h : ∀ e ∈ index.entries, (encode e.2).Storable) :
    (Value.object (index.entries.map fun e => (name e.1, encode e.2))).Storable := by
  refine Value.storable_object.2 ⟨?_, List.forall_mem_map.2 h⟩
  have hkeys := index.nodup_keys.map hname
  rwa [List.map_map] at hkeys ⊢

theorem storable_toJson {s : Statistics} (h : s.Storable) : s.toJson.Storable := by
  -- Every float of the statistics is finite, and every count fits.
  have htotals : ∀ t ∈ s.totals, t.toJson.Storable := by
    intro t ht
    have hfinite := h.finite.totals t ht
    simp [TotalSummary.toJson, hfinite.mean, hfinite.min, hfinite.max]
  have hquestions : ∀ e ∈ s.perQuestion.entries, e.2.toJson.Storable := by
    intro e he
    simpa [QuestionStatistics.toJson] using And.intro (h.answersOf e he) (h.finite.questions e he)
  have hcategories : ∀ e ∈ s.perCategory.entries, e.2.toJson.Storable := by
    intro e he
    simpa [CategoryStatistics.toJson]
      using And.intro (h.sessionsOf e he) (h.finite.categories e he)
  -- Two keys of a table are written differently, for each is read back as itself.
  have hperQuestion := storable_index s.perQuestion
    (injective_of_spells fun id k => idOfKey_of_spells id) hquestions
  have hperCategory := storable_index s.perCategory
    (injective_of_spells fun c k => respondentOfKey_of_spells c) hcategories
  rw [toJson, Value.storable_object]
  refine ⟨by simp, ?_⟩
  simp only [List.forall_mem_cons, storable_countValue, storable_ofOption]
  exact ⟨h.sessions, h.complete, h.incomplete, h.failed, htotals, hperQuestion, hperCategory,
    List.forall_mem_nil _⟩

/-- **The statistics of a batch** are decoded. -/
theorem decodes {s : Statistics} (hs : s.Storable) : Decodes decoder s.toJson s := by
  refine decodes_record (fun _ _ => rfl) rfl (by simp) fun r h => ?_
  have hsessions := h.field "sessions" (by simp) (decodes_countValue hs.sessions)
  have hcomplete := h.field "complete" (by simp) (decodes_countValue hs.complete)
  have hincomplete := h.field "partial" (by simp) (decodes_countValue hs.incomplete)
  have hfailed := h.field "failed" (by simp) (decodes_countValue hs.failed)
  -- The totals are left out where no session has a total.
  have htotals := h.fieldOptional "totals" (by simp)
    (decodes_optional fun t (_ : t ∈ s.totals) => ⟨t.decodes, nofun⟩)
  have hquestions := field_index h "per_question" (by simp) (fun id k => idOfKey_of_spells id)
    fun e he => QuestionStatistics.decodes (hs.answersOf e he)
  have hcategories := field_index h "per_category" (by simp)
    (fun c k => respondentOfKey_of_spells c)
    fun e he => CategoryStatistics.decodes (hs.sessionsOf e he)
  simp [hsessions, hcomplete, hincomplete, hfailed, htotals, hquestions, hcategories, h.build]

end Statistics

/-! ### Reports -/

@[simp] theorem SessionFailure.storable_toJson (f : SessionFailure) : f.toJson.Storable := by
  simp [toJson]

theorem SessionFailure.decodes (f : SessionFailure) : Decodes decoder f.toJson f := by
  refine decodes_record (fun _ _ => rfl) rfl (by simp) fun r h => ?_
  have hsession := h.field "session_id" (by simp) (decodes_idValue f.sessionId)
  have hanswer := h.fieldOptional "answer" (by simp)
    (decodes_optional fun k (_ : k ∈ f.answer) => ⟨k.decodes, nofun⟩)
  have hmessage := h.field "message" (by simp) (decodes_string f.message)
  simp [hsession, hanswer, hmessage, h.build]

theorem ScoringSettings.decodes (s : ScoringSettings) : Decodes decoder s.toJson s := by
  refine decodes_record (fun _ _ => rfl) rfl (by simp) fun r h => ?_
  have hpolicy := h.fieldOr "failure_policy" (by simp) .abort
    (decodes_word (FailurePolicy.ofName?_name s.failurePolicy))
  have haggregation := h.fieldOr "aggregation" (by simp) .sum
    (decodes_word (Aggregation.ofName?_name s.aggregation))
  simp [FailurePolicy.decoder, Aggregation.decoder, hpolicy, haggregation, h.build]

namespace Report

/-- **The reports that can be stored:** floats are finite, and counts have 64 bits. -/
structure Storable (r : Report) : Prop where
  breakdowns : ∀ b ∈ r.breakdowns, b.Storable
  statistics : r.statistics.Storable
  duration : r.durationMs < 2 ^ 64

/-- **A report** is decoded, from whatever node stands for it. -/
theorem decodes {report : Report} (hreport : report.Storable) :
    Decodes decoder report.toJson report := by
  refine decodes_record (fun _ _ => rfl) rfl (by simp) fun r h => ?_
  have hid := h.field "id" (by simp) (decodes_ofText report.id.parse?_text)
  have hcreated := h.field "created_at" (by simp) (decodes_ofText report.createdAt.parse?_text)
  have hsettings := h.field "calculator" (by simp) report.settings.decodes
  have hbreakdowns := h.field "breakdowns" (by simp [Breakdown.listToJson])
    (decodes_list fun b hb => Breakdown.decodes (hreport.breakdowns b hb))
  have hfailures := h.field "failures" (by simp)
    (decodes_list fun f (_ : f ∈ report.failures) => f.decodes)
  have hstatistics := h.field "stats" (by simp) (Statistics.decodes hreport.statistics)
  have hduration := h.field "duration_ms" (by simp) (decodes_countValue hreport.duration)
  simp [Timestamp.decoder, hid, hcreated, hsettings, hbreakdowns, hfailures, hstatistics,
    hduration, h.build]

/-- **A report that can be stored** has a JSON text. -/
theorem storable_toJson {r : Report} (h : r.Storable) : r.toJson.Storable := by
  have hbreakdowns : (Breakdown.listToJson r.breakdowns).Storable := by
    rw [Breakdown.listToJson, Value.storable_array, List.forall_mem_map]
    exact fun b hb => Breakdown.storable_toJson (h.breakdowns b hb)
  have hstatistics := Statistics.storable_toJson h.statistics
  simpa [toJson, ScoringSettings.toJson, hbreakdowns, hstatistics] using h.duration

/-- **The text of a report** is read as the report. -/
theorem decode_pretty {r : Report} (h : r.Storable) :
    decode decoder r.toJson.pretty = .ok r :=
  decode_of_written (storable_toJson h) (fun node hnode => decodes h .text node hnode.stands)
    (Value.written_pretty _)

/-- The report of a batch with a breakdown of a scored and a failed answer and with a session that
has none. -/
theorem decode_pretty_partial :
    let b := Breakdown.fold 7 .kid .mean
      [⟨⟨1, 2⟩, "\"A\"\n", "-0.0", .scored (-0.0)⟩,
        ⟨⟨3, -4⟩, "ä", "1 / 0", .failed .divisionByZero "division by zero"⟩]
    let r : Report := {
      id := Uuid.nil
      createdAt := ⟨⟨2024, 2, 29, by decide, by decide, by decide⟩, 23, 59, 60, 120000000,
        by decide, by decide, by decide, by decide⟩
      settings := ⟨.record, .mean⟩
      breakdowns := [b]
      failures := [⟨8, some ⟨1, 2⟩, "no such answer"⟩]
      statistics := .ofBreakdowns [b] 1
      durationMs := 12 }
    r.Storable ∧ decode decoder r.toJson.pretty = .ok r := by
  intro b r
  -- The breakdown and the statistics are small enough to be computed.
  have hb : b.Storable := ⟨by decide +kernel, by decide +kernel, by decide +kernel, by decide⟩
  have hr : r.Storable := by
    have hnone : (Statistics.ofBreakdowns [b] 1).totals = none := rfl
    have hfinite : (Statistics.ofBreakdowns [b] 1).Finite :=
      ⟨fun t ht => (nomatch hnone ▸ ht), by decide +kernel, by decide +kernel⟩
    exact ⟨List.forall_mem_singleton.2 hb, ⟨hfinite, by decide, by decide, by decide, by decide,
      by decide +kernel, by decide +kernel⟩, by decide⟩
  exact ⟨hr, decode_pretty hr⟩

end Report

/-! ### Comparisons -/

theorem TotalChange.decodes (c : TotalChange) : Decodes decoder c.toJson c := by
  refine decodes_record (fun _ _ => rfl) rfl (by simp) fun r h => ?_
  have hsession := h.field "session_id" (by simp) (decodes_idValue c.sessionId)
  have hbaseline := h.fieldOptional "baseline" (by simp) (decodes_floatOption c.baseline)
  have hcurrent := h.fieldOptional "current" (by simp) (decodes_floatOption c.current)
  have hdelta := h.fieldOptional "delta" (by simp) (decodes_floatOption c.delta)
  simp [hsession, hbaseline, hcurrent, hdelta, h.build]

namespace Comparison

/-- The comparisons that can be stored: floats are finite, and the count has 64 bits. -/
structure Storable (c : Comparison) : Prop where
  baseline : ∀ change ∈ c.changes, ∀ x ∈ change.baseline, x.isFinite = true
  current : ∀ change ∈ c.changes, ∀ x ∈ change.current, x.isFinite = true
  delta : ∀ change ∈ c.changes, ∀ x ∈ change.delta, x.isFinite = true
  unchanged : c.unchanged < 2 ^ 64

theorem storable_toJson {c : Comparison} (h : c.Storable) : c.toJson.Storable := by
  have hchanges : ∀ change ∈ c.changes, change.toJson.Storable := by
    intro change hchange
    simpa [TotalChange.toJson, floatOption] using ⟨h.baseline change hchange,
      h.current change hchange, h.delta change hchange⟩
  simpa [toJson, List.forall_mem_map] using ⟨hchanges, h.unchanged⟩

/-- **A comparison** is decoded. -/
theorem decodes {c : Comparison} (hc : c.Storable) : Decodes decoder c.toJson c := by
  refine decodes_record (fun _ _ => rfl) rfl (by simp) fun r h => ?_
  have hchanges := h.field "changes" (by simp)
    (decodes_list fun change (_ : change ∈ c.changes) => change.decodes)
  have hunchanged := h.field "unchanged" (by simp) (decodes_countValue hc.unchanged)
  have hnew := h.field "new_sessions" (by simp)
    (decodes_list fun id (_ : id ∈ c.newSessions) => decodes_idValue id)
  have hremoved := h.field "removed_sessions" (by simp)
    (decodes_list fun id (_ : id ∈ c.removedSessions) => decodes_idValue id)
  simp [hchanges, hunchanged, hnew, hremoved, h.build]

end Comparison

end Scoresheet
