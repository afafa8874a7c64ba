import Wireframe.Finding.Data
import Wireframe.Proofs.Data
import Wireframe.Proofs.Json.Values
import Wireframe.Proofs.Theme.Given

/-!
# Findings read back

A finding that is given as data is the finding that is read from them, and so is a diagnostic
(`Diagnostic.ofData?_toData`). What the data say field by field is the entry of the diagnostic
(`Diagnostic.IsEntry`): a reader that knows nothing of findings finds the name of the rule there, and
a missing destination as null. A report is written as JSON and read back as it was
(`Diagnostic.read?_pretty`).
-/

namespace Wireframe

/-! ### Line numbers -/

namespace Data

/-- A whole number is kept as a coefficient and a count of zeros behind it. -/
theorem exists_ofNat_eq (n : ℕ) : ∃ coefficient count : ℕ,
    ofNat n = .number (.finite false coefficient count) ∧ coefficient * tenTo count = n := by
  rw [ofNat, Numeral.ofInt, Int.natAbs_natCast, Numeral.decimal]
  split_ifs with hzero
  · exact ⟨0, 0, by simp, by simp [hzero]⟩
  · obtain ⟨count, hexponent, hvalue⟩ :=
      Numeral.stripZeros_value (Numeral.digits n).length n 0
    refine ⟨_, count, ?_, hvalue⟩
    simp [hexponent]

theorem nat?_ofNat (n : ℕ) : nat? (ofNat n) = some n := by
  obtain ⟨coefficient, count, heq, hvalue⟩ := exists_ofNat_eq n
  rw [heq, nat?, if_neg (by simp), Int.toNat_natCast, hvalue]

theorem nats?_ofNats (ns : List ℕ) : nats? (ofNats ns) = some ns := listOf_map nat?_ofNat ns

theorem optionalText?_ofText? (value : Option String) :
    optionalText? (ofText? value) = some value := by
  cases value <;> rfl

/-- A whole number can be written as JSON. -/
theorem writable_ofNat (n : ℕ) : Json.Writable (ofNat n) := by
  obtain ⟨coefficient, count, heq, -⟩ := exists_ofNat_eq n
  have hnormal : (Numeral.ofInt n).Normal := Numeral.normal_decimal ..
  rw [ofNat] at heq ⊢
  rw [Data.number.inj heq] at hnormal ⊢
  exact ⟨hnormal, _, _, _, rfl⟩

theorem writable_ofText? (value : Option String) : Json.Writable (ofText? value) := by
  cases value <;> trivial

end Data

theorem Data.writable_ofNats (ns : List ℕ) : Json.Writable (ofNats ns) :=
  Json.allWritable_map writable_ofNat ns

/-! ### Findings -/

namespace Finding

/-- A finding that is given as data is read back, whichever rule it is about. -/
theorem ofData?_toData (finding : Finding) : ofData? finding.toData = some finding := by
  have hnodup : ((("rule", Data.text finding.rule) :: finding.details).map Prod.fst).Nodup := by
    cases finding <;> simp [details]
  rw [ofData?, toData, Data.fields?_of_nodup hnodup]
  cases finding <;>
    simp [details, rule, List.lookup_cons, Data.need, Data.orElse, Data.text?, Data.nat?_ofNat,
      Data.nats?_ofNats, Data.optionalText?_ofText?]

/-- A finding that is given as data can be written as JSON. -/
theorem writable_toData (finding : Finding) : Json.Writable finding.toData := by
  cases finding <;>
    simp [toData, details, Json.Writable, Json.AllFieldsWritable, Data.writable_ofNat,
      Data.writable_ofNats, Data.writable_ofText?]

end Finding

/-! ### Diagnostics -/

namespace Diagnostic

theorem ofData?_toData (diagnostic : Diagnostic) :
    ofData? diagnostic.toData = some diagnostic := by
  rw [ofData?, toData, Data.fields?_of_nodup (by simp)]
  simp [List.lookup_cons, Data.need, Finding.ofData?_toData, Data.nats?_ofNats]

theorem listOf_reportData (diagnostics : List Diagnostic) :
    Data.listOf ofData? (reportData diagnostics) = some diagnostics :=
  Data.listOf_map ofData?_toData diagnostics

/-- What data say about a diagnostic, by the names of their fields. -/
structure IsEntry (diagnostic : Diagnostic) (data : Data) : Prop where
  /-- The name of the rule. -/
  rule : data.at? ["finding", "rule"] = some (.text diagnostic.rule)
  /-- The finding with all that belongs to it. -/
  finding : (data.at? ["finding"]).bind Finding.ofData? = some diagnostic.finding
  /-- A missing destination. -/
  url : ∀ text lines, diagnostic.finding = .duplicateLink text none lines →
    data.at? ["finding", "url"] = some .null
  /-- The lines. -/
  lines : (data.at? ["lines"]).bind Data.nats? = some diagnostic.lines
  /-- Nothing else. -/
  only : ∀ name, name ≠ "finding" → name ≠ "lines" → data.at? [name] = none

/-- What the data say field by field is the entry of the diagnostic. -/
theorem isEntry_toData (diagnostic : Diagnostic) : IsEntry diagnostic diagnostic.toData where
  rule := by simp [toData, Finding.toData, Data.at?, rule]
  finding := by simp [toData, Data.at?_record, Finding.ofData?_toData]
  url := by
    intro text lines hfinding
    simp [toData, Finding.toData, hfinding, Finding.details, Data.at?, List.lookup_cons, Data.ofText?]
  lines := by simp [toData, Data.at?_record, List.lookup_cons, Data.nats?_ofNats]
  only := by
    intro name hfinding hlines
    simp [toData, Data.at?_record, List.lookup_cons, beq_eq_false_iff_ne.mpr hfinding,
      beq_eq_false_iff_ne.mpr hlines]

/-- A report can be written as JSON. -/
theorem writable_reportData (diagnostics : List Diagnostic) :
    Json.Writable (reportData diagnostics) := by
  refine Json.allWritable_map (fun diagnostic => ?_) diagnostics
  simp [toData, Json.Writable, Json.AllFieldsWritable, Finding.writable_toData,
    Data.writable_ofNats]

/-- A report that is printed as JSON is read as its entries. -/
theorem read?_pretty (diagnostics : List Diagnostic) :
    Json.read? (Json.pretty (reportData diagnostics) ++ "\n") = some (reportData diagnostics) := by
  have hspace : ∀ c ∈ ['\n'], Json.isSpace c = true := List.forall_mem_singleton.mpr rfl
  have hread := Json.read?_write (writable_reportData diagnostics) true hspace
  rwa [String.ofList_append] at hread

end Diagnostic

end Wireframe
