import SqlCompose.Query.Order

/-!
# Order specifications are read back

A specification is a sign, a model before the first colon, and a field; sign and model may be left
out. The main statement: whatever was read can be written out with sign and model, and is then read
as the same entry under every default model. Names of fields may hold colons and start with signs,
as only the first sign and the first colon count.
-/

namespace SqlCompose

/-- The specification that leaves nothing out. -/
def FieldRef.orderText (ref : FieldRef) (d : Direction) : String := d.sign ++ ref.text

namespace OrderEntry

theorem splitSign_sign (d : Direction) (name : List Char) :
    splitSign (d.sign.toList ++ name) = (d, name) := by
  cases d <;> rfl

/-- A text is split at its first colon. -/
theorem splitColon_append {before : List Char} (h : ':' ∉ before) (after : List Char) :
    splitColon (before ++ ':' :: after) = some (before, after) := by
  induction before with
  | nil => rfl
  | cons c before ih =>
    rw [List.mem_cons, not_or] at h
    rw [List.cons_append, splitColon, ih h.2]
    · rfl
    · exact fun hc => h.1 hc.symm

theorem splitColon_of_notMem {name : List Char} (h : ':' ∉ name) : splitColon name = none := by
  induction name with
  | nil => rfl
  | cons c name ih =>
    rw [List.mem_cons, not_or] at h
    rw [splitColon, ih h.2]
    · rfl
    · exact fun hc => h.1 hc.symm

theorem notMem_of_splitColon {name before after : List Char}
    (h : splitColon name = some (before, after)) : ':' ∉ before := by
  fun_induction splitColon name generalizing before with
  | case1 => cases h
  | case2 rest =>
    cases h
    exact List.not_mem_nil
  | case3 c rest hc ih =>
    obtain ⟨⟨first, second⟩, hrest, heq⟩ := Option.map_eq_some_iff.mp h
    cases heq
    rw [List.mem_cons, not_or]
    exact ⟨fun h => hc h.symm, ih hrest⟩

/-- The field that the name in a specification stands for. -/
def namedField (default : String) (name : List Char) : FieldRef :=
  match splitColon name with
  | some (model, field) => ⟨.ofList model, .ofList field⟩
  | none => ⟨default, .ofList name⟩

/-- A specification is refused exactly if nothing stands behind its sign. -/
theorem parse_eq (default spec : String) :
    parse default spec =
      if (splitSign spec.toList).2.isEmpty then .error (.invalidStatement (.emptyOrder spec))
      else .ok ⟨.field (namedField default (splitSign spec.toList).2),
        (splitSign spec.toList).1⟩ := rfl

theorem parse_sign_append (default : String) (d : Direction) (name : String) :
    parse default (d.sign ++ name) =
      if name = "" then .error (.invalidStatement (.emptyOrder (d.sign ++ name)))
      else .ok ⟨.field (namedField default name.toList), d⟩ := by
  rw [parse_eq, String.toList_append, splitSign_sign]
  simp only [List.isEmpty_iff, String.toList_eq_nil_iff]

theorem namedField_qualified (default : String) {model : String} (h : ':' ∉ model.toList)
    (field : String) : namedField default (model ++ ":" ++ field).toList = ⟨model, field⟩ := by
  have hname : (model ++ ":" ++ field).toList = model.toList ++ ':' :: field.toList := by
    rw [String.toList_append, String.toList_append, List.append_assoc]
    rfl
  rw [namedField, hname, splitColon_append h]
  simp only [String.ofList_toList]

theorem namedField_plain (default : String) {field : String} (h : ':' ∉ field.toList) :
    namedField default field.toList = ⟨default, field⟩ := by
  rw [namedField, splitColon_of_notMem h]
  simp only [String.ofList_toList]

/-- The model of a field that was read holds no colon, unless the default one does. -/
theorem notMem_model_namedField {default : String} (h : ':' ∉ default.toList)
    (name : List Char) : ':' ∉ (namedField default name).model.toList := by
  rw [namedField]
  split
  · rename_i model field hsplit
    rw [String.toList_ofList]
    exact notMem_of_splitColon hsplit
  · exact h

/-- A specification with sign and model is read as what it names, by every default model. -/
theorem parse_orderText (default : String) {ref : FieldRef} (h : ':' ∉ ref.model.toList)
    (d : Direction) : parse default (ref.orderText d) = .ok ⟨.field ref, d⟩ := by
  have hname : ref.text ≠ "" := by
    intro hempty
    have hlength := congrArg String.length hempty
    simp [FieldRef.text] at hlength
  rw [FieldRef.orderText, parse_sign_append, if_neg hname, FieldRef.text, namedField_qualified _ h]

/-- An entry that was read has a field whose model holds no colon. -/
theorem exists_of_parse_eq_ok {default spec : String} {entry : OrderEntry}
    (hdefault : ':' ∉ default.toList) (h : parse default spec = .ok entry) :
    ∃ ref d, entry = ⟨.field ref, d⟩ ∧ ':' ∉ ref.model.toList := by
  rw [parse_eq] at h
  split at h
  · cases h
  · cases h
    exact ⟨_, _, rfl, notMem_model_namedField hdefault _⟩

end OrderEntry

/-- A specification with a sign is read as the field that it names, where the model ends at the
first colon and is the default one if there is none; a sign alone names no field. What was read is
read again, by every default model, from the specification that leaves nothing out. -/
theorem order_specification_read_back :
    (∀ default (d : Direction) model field, ':' ∉ model.toList →
      OrderEntry.parse default (d.sign ++ model ++ ":" ++ field) =
        .ok ⟨.field ⟨model, field⟩, d⟩) ∧
    (∀ default (d : Direction) field, ':' ∉ field.toList →
      (OrderEntry.parse default (d.sign ++ field) = .ok ⟨.field ⟨default, field⟩, d⟩ ↔
        field ≠ "")) ∧
    (∀ default spec entry, ':' ∉ default.toList → OrderEntry.parse default spec = .ok entry →
      ∃ ref d, entry = ⟨.field ref, d⟩ ∧
        ∀ other, OrderEntry.parse other (ref.orderText d) = .ok entry) := by
  refine ⟨fun default d model field hmodel => ?_, fun default d field hfield => ?_,
    fun default spec entry hdefault h => ?_⟩
  · have hspec : d.sign ++ model ++ ":" ++ field = FieldRef.orderText ⟨model, field⟩ d := by
      simp only [FieldRef.orderText, FieldRef.text, String.append_assoc]
    rw [hspec, OrderEntry.parse_orderText default hmodel]
  · rw [OrderEntry.parse_sign_append, OrderEntry.namedField_plain default hfield]
    by_cases hempty : field = "" <;> simp [hempty]
  · obtain ⟨ref, d, rfl, hmodel⟩ := OrderEntry.exists_of_parse_eq_ok hdefault h
    exact ⟨ref, d, rfl, fun other => OrderEntry.parse_orderText other hmodel d⟩

/-- A field that starts with a sign and holds a colon, one that starts with a sign, and one that is
named without sign and model. -/
theorem order_specification_read_back_signed :
    ':' ∉ "User".toList ∧
      OrderEntry.parse "Person" "-User:+a:b" = .ok ⟨.field ⟨"User", "+a:b"⟩, .desc⟩ ∧
    ':' ∉ "-age".toList ∧ "-age" ≠ "" ∧
      OrderEntry.parse "Person" "+-age" = .ok ⟨.field ⟨"Person", "-age"⟩, .asc⟩ ∧
    ':' ∉ "Person".toList ∧
      OrderEntry.parse "Person" "age" = .ok ⟨.field ⟨"Person", "age"⟩, .asc⟩ ∧
      ∀ other, OrderEntry.parse other "+Person:age" = .ok ⟨.field ⟨"Person", "age"⟩, .asc⟩ := by
  obtain ⟨qualified, plain, again⟩ := order_specification_read_back
  have huser : ':' ∉ "User".toList := by decide
  have hage : ':' ∉ "-age".toList := by decide
  have hperson : ':' ∉ "Person".toList := by decide
  have hread : OrderEntry.parse "Person" "age" = .ok ⟨.field ⟨"Person", "age"⟩, .asc⟩ := by rfl
  obtain ⟨ref, d, hentry, hagain⟩ := again "Person" "age" _ hperson hread
  obtain ⟨href, rfl⟩ := (OrderEntry.mk.injEq ..).mp hentry
  cases href
  exact ⟨huser, qualified "Person" .desc "User" "+a:b" huser, hage, by decide,
    (plain "Person" .asc "-age" hage).mpr (by decide), hperson, hread, hagain⟩

end SqlCompose
