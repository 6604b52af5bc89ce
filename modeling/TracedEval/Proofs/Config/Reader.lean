import TracedEval.Proofs.Config.Scalar

/-!
# Reading configurations

Which texts of an object give a configuration, and which one they give. The reader takes the
members as they come and keeps account of the settings that are still open; `assign?` is what it
does to the members of a tree, and `assign?_eq_some_iff` that this depends on nothing but which
members there are. `Config.parse_object` is the statement about texts.
-/

namespace TracedEval

/-! ## Settings -/

/-- What a setting can be. -/
abbrev ConfigField.Value : ConfigField → Type
  | maxCallDepth => ℕ
  | echoOutput => Bool
  | captureOutput => Bool
  | traceFormat => TraceFormat

/-- What a member with this value makes of a setting. -/
def ConfigField.ofTree? : (field : ConfigField) → JsonTree → Option field.Value
  | maxCallDepth => JsonTree.count?
  | echoOutput => JsonTree.flag?
  | captureOutput => JsonTree.flag?
  | traceFormat => JsonTree.format?

/-- A depth of zero is not allowed. -/
def ConfigField.Allows : (field : ConfigField) → field.Value → Prop
  | maxCallDepth, depth => 0 < depth
  | echoOutput, _ => True
  | captureOutput, _ => True
  | traceFormat, _ => True

theorem ConfigField.mem_all (field : ConfigField) : field ∈ all := by
  cases field <;> decide

theorem ConfigField.ofName?_eq_some_iff {name : String} {field : ConfigField} :
    ofName? name = some field ↔ name = field.name := by
  constructor
  · intro h
    rw [ofName?] at h
    have hname := List.find?_some h
    exact (beq_iff_eq.mp hname).symm
  · rintro rfl
    exact ofName?_name field

theorem ConfigField.name_injective : Function.Injective ConfigField.name := by
  intro field field' h
  have hsame := ofName?_eq_some_iff.mpr h
  rw [ofName?_name] at hsame
  exact Option.some_inj.mp hsame

namespace Config

/-- The value of a setting. -/
def get (config : Config) : (field : ConfigField) → field.Value
  | .maxCallDepth => config.maxCallDepth
  | .echoOutput => config.echoOutput
  | .captureOutput => config.captureOutput
  | .traceFormat => config.traceFormat

/-- The configuration with another value of a setting. -/
def set (config : Config) : (field : ConfigField) → field.Value → Config
  | .maxCallDepth, depth => { config with maxCallDepth := depth }
  | .echoOutput, echo => { config with echoOutput := echo }
  | .captureOutput, capture => { config with captureOutput := capture }
  | .traceFormat, format => { config with traceFormat := format }

theorem get_set_self (config : Config) (field : ConfigField) (x : field.Value) :
    (config.set field x).get field = x := by
  cases field <;> rfl

theorem get_set_of_ne (config : Config) {field field' : ConfigField} (x : field.Value)
    (h : field' ≠ field) : (config.set field x).get field' = config.get field' := by
  cases field <;> cases field' <;> first | rfl | exact absurd rfl h

theorem ext_get {config config' : Config} (h : ∀ field, config.get field = config'.get field) :
    config = config' := by
  obtain ⟨depth, echo, capture, format⟩ := config
  obtain rfl : depth = _ := h .maxCallDepth
  obtain rfl : echo = _ := h .echoOutput
  obtain rfl : capture = _ := h .captureOutput
  obtain rfl : format = _ := h .traceFormat
  rfl

end Config

/-! ## Members of a tree -/

/-- Keys and values in the order in which they stand. -/
abbrev Members := List (Option String × JsonTree)

/-- The configuration with the members' settings, if each of them gives another one of the open
settings. -/
def assign? (unset : List ConfigField) (config : Config) : Members → Option Config
  | [] => some config
  | (key, v) :: ms => do
    let field ← key.bind ConfigField.ofName?
    if field ∈ unset then
      let x ← field.ofTree? v
      assign? (unset.erase field) (config.set field x) ms
    else none

theorem assign?_cons {unset : List ConfigField} {config config' : Config} {key : Option String}
    {v : JsonTree} {ms : Members} :
    assign? unset config ((key, v) :: ms) = some config' ↔
      ∃ field ∈ unset, key = some field.name ∧ ∃ x, field.ofTree? v = some x ∧
        assign? (unset.erase field) (config.set field x) ms = some config' := by
  simp only [assign?, Option.bind_eq_bind, Option.bind_eq_some_iff,
    ConfigField.ofName?_eq_some_iff]
  constructor
  · rintro ⟨field, ⟨name, rfl, rfl⟩, h⟩
    split at h
    · rename_i hmem
      exact ⟨field, hmem, rfl, Option.bind_eq_some_iff.mp h⟩
    · cases h
  · rintro ⟨field, hmem, rfl, h⟩
    refine ⟨field, ⟨_, rfl, rfl⟩, ?_⟩
    rw [if_pos hmem]
    exact Option.bind_eq_some_iff.mpr h

/-- A setting that only the first member gives is not one of the others'. -/
theorem open_erase {unset : List ConfigField} {field : ConfigField} {ms : Members}
    (hnew : some field.name ∉ ms.map Prod.fst) {P : ConfigField → Option String × JsonTree → Prop}
    (h : ∀ m ∈ ms, ∃ field' ∈ unset, m.1 = some field'.name ∧ P field' m) :
    ∀ m ∈ ms, ∃ field' ∈ unset.erase field, m.1 = some field'.name ∧ P field' m := by
  intro m hm
  obtain ⟨field', hmem, hname, hP⟩ := h m hm
  refine ⟨field', (List.mem_erase_of_ne ?_).mpr hmem, hname, hP⟩
  rintro rfl
  exact hnew (List.mem_map.mpr ⟨m, hm, hname⟩)

/-- The order of the members does not matter: all that is asked of them is that no key is there
twice, that each is the name of an open setting and that its value is one of the setting. -/
theorem assign?_eq_some_iff {unset : List ConfigField} (hunset : unset.Nodup)
    {config config' : Config} {ms : Members} :
    assign? unset config ms = some config' ↔
      (ms.map Prod.fst).Nodup ∧
      (∀ m ∈ ms, ∃ field ∈ unset, m.1 = some field.name ∧
        field.ofTree? m.2 = some (config'.get field)) ∧
      ∀ field, some field.name ∉ ms.map Prod.fst → config'.get field = config.get field := by
  induction ms generalizing unset config with
  | nil =>
    rw [assign?, Option.some_inj]
    constructor
    · rintro rfl
      simp
    · rintro ⟨-, -, hget⟩
      exact Config.ext_get fun field => (hget field (by simp)).symm
  | cons m ms ih =>
    obtain ⟨key, v⟩ := m
    rw [assign?_cons, List.map_cons, List.nodup_cons]
    constructor
    · rintro ⟨field, hmem, rfl, x, hx, hrest⟩
      obtain ⟨hnodup, hgiven, habsent⟩ := (ih (hunset.erase field)).mp hrest
      have hnew : some field.name ∉ ms.map Prod.fst := by
        intro hkey
        obtain ⟨m, hm, hname⟩ := List.mem_map.mp hkey
        obtain ⟨field', hmem', hname', -⟩ := hgiven m hm
        obtain rfl := ConfigField.name_injective (Option.some_inj.mp (hname.symm.trans hname'))
        exact hunset.not_mem_erase hmem'
      refine ⟨⟨hnew, hnodup⟩, ?_, ?_⟩
      · intro m hm
        rcases List.mem_cons.mp hm with rfl | hm
        · refine ⟨field, hmem, rfl, ?_⟩
          rw [hx, habsent field hnew, Config.get_set_self]
        · obtain ⟨field', hmem', hgives⟩ := hgiven m hm
          exact ⟨field', List.mem_of_mem_erase hmem', hgives⟩
      · intro field' hkey
        obtain ⟨hne, hkey⟩ := not_or.mp (mt List.mem_cons.mpr hkey)
        rw [habsent field' hkey, Config.get_set_of_ne config x]
        rintro rfl
        exact hne rfl
    · rintro ⟨⟨hnew, hnodup⟩, hgiven, habsent⟩
      obtain ⟨hhead, htail⟩ := List.forall_mem_cons.mp hgiven
      obtain ⟨field, hmem, rfl, hx⟩ := hhead
      refine ⟨field, hmem, rfl, _, hx,
        (ih (hunset.erase field)).mpr ⟨hnodup, open_erase hnew htail, ?_⟩⟩
      intro field' hkey
      by_cases hsame : field' = field
      · subst hsame
        rw [Config.get_set_self]
      · rw [Config.get_set_of_ne config _ hsame]
        refine habsent field' (mt List.mem_cons.mp (not_or.mpr ⟨?_, hkey⟩))
        exact fun heq => hsame (ConfigField.name_injective (Option.some_inj.mp heq))

theorem exists_assign? {unset : List ConfigField} {ms : Members} (hnodup : (ms.map Prod.fst).Nodup)
    (h : ∀ m ∈ ms, ∃ field ∈ unset, m.1 = some field.name ∧ ∃ x, field.ofTree? m.2 = some x)
    (config : Config) : ∃ config', assign? unset config ms = some config' := by
  induction ms generalizing unset config with
  | nil => exact ⟨config, rfl⟩
  | cons m ms ih =>
    obtain ⟨key, v⟩ := m
    rw [List.map_cons, List.nodup_cons] at hnodup
    obtain ⟨hnew, hnodup⟩ := hnodup
    obtain ⟨⟨field, hmem, rfl, x, hx⟩, htail⟩ := List.forall_mem_cons.mp h
    obtain ⟨config', hassign⟩ := ih hnodup (open_erase hnew htail) (config.set field x)
    exact ⟨config', assign?_cons.mpr ⟨field, hmem, rfl, x, hx, hassign⟩⟩

/-! ## Members of a text -/

open JsonTree (ValueText ElementText MemberText MembersText)

/-- What an object has in front of its end: members, with a comma before those that are not the
first. -/
inductive Ahead : Bool → List Char → Members → List Char → Prop
  | none {first : Bool} {s t : List Char} (blanks : Blanks s ('\x7d' :: t)) : Ahead first s [] t
  | first {s t : List Char} {ms : Members} (members : MembersText s ms ('\x7d' :: t)) :
      Ahead true s ms t
  | later {s s' t : List Char} {ms : Members} (comma : Blanks s (',' :: s'))
      (members : MembersText s' ms ('\x7d' :: t)) : Ahead false s ms t

theorem nextKey?_none {c : Cursor} {t : List Char} (h : Blanks c.rest ('\x7d' :: t))
    (first : Bool) : nextKey? first c = .ok none := by
  have hrest := rest_skipBlanks_cons h rfl
  unfold nextKey?
  dsimp only
  rw [hrest]
  rfl

theorem nextKey?_first {c : Cursor} {s : List Char} (h : Blanks c.rest ('"' :: s)) :
    ∃ key, nextKey? true c = .ok (some key) ∧ key.rest = '"' :: s := by
  have hrest := rest_skipBlanks_cons h rfl
  unfold nextKey?
  dsimp only
  rw [hrest]
  exact ⟨c.skipBlanks, rfl, hrest⟩

theorem nextKey?_later {c : Cursor} {s s' : List Char} (hcomma : Blanks c.rest (',' :: s'))
    (hquote : Blanks s' ('"' :: s)) :
    ∃ key, nextKey? false c = .ok (some key) ∧ key.rest = '"' :: s := by
  have hrest := rest_skipBlanks_cons hcomma rfl
  have hkey := rest_skipBlanks_cons (rest_drop_one hrest ▸ hquote) rfl
  unfold nextKey?
  dsimp only
  rw [hrest]
  rw [hkey]
  exact ⟨(c.skipBlanks.drop 1).skipBlanks, rfl, hkey⟩

/-- The first of the members that are ahead, taken apart: its key, the colon, the value and the
others. -/
theorem Ahead.member {first : Bool} {c : Cursor} {t : List Char} {key : Option String}
    {v : JsonTree} {ms : Members} (h : Ahead first c.rest ((key, v) :: ms) t) :
    ∃ c' s₁ s₂ s₃ s₄ s₅, nextKey? first c = .ok (some c') ∧ c'.rest = '"' :: s₁ ∧
      StringText s₁ key s₂ ∧ Blanks s₂ (':' :: s₃) ∧ Blanks s₃ s₄ ∧ ValueText s₄ v s₅ ∧
      NumberEnds s₅ ∧ Ahead false s₅ ms t := by
  have hparts : ∀ {s}, MembersText s ((key, v) :: ms) ('\x7d' :: t) →
      ∃ s₁ s₂ s₃ s₄ s₅, Blanks s ('"' :: s₁) ∧ StringText s₁ key s₂ ∧ Blanks s₂ (':' :: s₃) ∧
        Blanks s₃ s₄ ∧ ValueText s₄ v s₅ ∧ NumberEnds s₅ ∧ Ahead false s₅ ms t := by
    intro s hmembers
    cases hmembers with
    | last member =>
      obtain ⟨before, hkey, colon, ⟨between, value, after⟩⟩ := member
      exact ⟨_, _, _, _, _, before, hkey, colon, between, value,
        after.numberEnds (elementEnds_cons t rfl rfl), .none after⟩
    | more member others =>
      obtain ⟨before, hkey, colon, ⟨between, value, after⟩⟩ := member
      exact ⟨_, _, _, _, _, before, hkey, colon, between, value,
        after.numberEnds (elementEnds_comma _), .later after others⟩
  cases h with
  | first members =>
    obtain ⟨s₁, s₂, s₃, s₄, s₅, before, hrest⟩ := hparts members
    obtain ⟨c', hnext, hc'⟩ := nextKey?_first before
    exact ⟨c', s₁, s₂, s₃, s₄, s₅, hnext, hc', hrest⟩
  | later comma members =>
    obtain ⟨s₁, s₂, s₃, s₄, s₅, before, hrest⟩ := hparts members
    obtain ⟨c', hnext, hc'⟩ := nextKey?_later comma before
    exact ⟨c', s₁, s₂, s₃, s₄, s₅, hnext, hc', hrest⟩

theorem readColon_blanks {c : Cursor} {t : List Char} (h : Blanks c.rest (':' :: t)) :
    ∃ after, readColon c = .ok after ∧ after.rest = t := by
  have hrest := rest_skipBlanks_cons h rfl
  unfold readColon
  dsimp only
  rw [hrest]
  exact ⟨_, rfl, rest_drop_one hrest⟩

theorem keyFault_fails {α : Type} (c : Cursor) (f : ReadFault) :
    ∃ e, (keyFault c f : Reading α) = .error e := by
  unfold keyFault
  dsimp only
  split
  · exact ⟨_, rfl⟩
  · exact ⟨_, rfl⟩

theorem readSetting_gives {c : Cursor} {s t : List Char} {v : JsonTree} (hc : Blanks c.rest s)
    (h : ValueText s v t) (ht : NumberEnds t) (field : ConfigField)
    (hobject : field = .traceFormat → ∀ ms, v ≠ .object ms) (config : Config) :
    Gives (readSetting field config c) ((field.ofTree? v).map (config.set field)) t := by
  cases field with
  | maxCallDepth => exact (readCount_gives hc h ht).map (config.set .maxCallDepth)
  | echoOutput => exact (readFlag_gives hc h).map (config.set .echoOutput)
  | captureOutput => exact (readFlag_gives hc h).map (config.set .captureOutput)
  | traceFormat => exact (readFormat_gives hc h (hobject rfl)).map (config.set .traceFormat)

/-- No trace format is given by an object. -/
def NoFormatObject (ms : Members) : Prop :=
  ∀ m ∈ ms, m.1 = some ConfigField.traceFormat.name → ∀ inner, m.2 ≠ .object inner

/-- The reader does with the members of a text what `assign?` does with those of the tree. -/
theorem readMembers_gives {ms : Members} (hobjects : NoFormatObject ms) {first : Bool} {c : Cursor}
    {t : List Char} (h : Ahead first c.rest ms t) (unset : List ConfigField) (config : Config) :
    Gives (readMembers unset first config c) (assign? unset config ms) t := by
  induction ms generalizing first c unset config with
  | nil =>
    have blanks : Blanks c.rest ('\x7d' :: t) := by
      cases h with
      | none blanks => exact blanks
      | first members => cases members
      | later _ members => cases members
    rw [readMembers, nextKey?_none blanks]
    exact ⟨c.skipBlanks.drop 1, rfl, rest_drop_one (rest_skipBlanks_cons blanks rfl)⟩
  | cons m ms ih =>
    obtain ⟨key, v⟩ := m
    obtain ⟨hobject, hothers⟩ := List.forall_mem_cons.mp hobjects
    obtain ⟨c', s₁, s₂, s₃, s₄, s₅, hnext, hc', hkey, colon, between, value, ends, others⟩ :=
      h.member
    have hread := readString_gives hc' hkey
    -- the key is read first, and whether it names an open setting decides about the rest
    rw [readMembers, hnext, assign?]
    simp only [Option.bind_eq_bind, Option.bind_assoc]
    show Gives (readString c' >>= _) _ t
    refine (readString_gives hc' hkey).bind fun name afterKey hname hafter => ?_
    dsimp only
    cases hfield : ConfigField.ofName? name with
    | none => exact keyFault_fails _ _
    | some field =>
      obtain rfl := ConfigField.ofName?_eq_some_iff.mp hfield
      dsimp only [Option.bind_some]
      by_cases hmem : field ∈ unset
      · obtain ⟨afterColon, hcolon, hbetween⟩ := readColon_blanks (hafter ▸ colon)
        have hsetting := readSetting_gives (hbetween ▸ between) value ends field
          (fun hformat => hobject (by rw [hname, hformat])) config
        rw [if_pos hmem, if_pos hmem, hcolon]
        have hread := hsetting.bind (f := fun r => readMembers (unset.erase field) false r.1 r.2)
          (g := fun config => assign? (unset.erase field) config ms)
          fun config after _ hafter => ih hothers (hafter ▸ others) (unset.erase field) config
        rw [Option.bind_map] at hread
        exact hread
      · rw [if_neg hmem, if_neg hmem]
        exact keyFault_fails _ _

/-! ## Texts -/

theorem object_ahead {s t : List Char} {ms : Members} (h : ValueText s (.object ms) t) :
    ∃ s', s = '\x7b' :: s' ∧ Ahead true s' ms t := by
  cases h with
  | noMembers blanks => exact ⟨_, rfl, .none blanks⟩
  | object members => exact ⟨_, rfl, .first members⟩

theorem readConfig_object {text : String} {ms : Members}
    (h : JsonTree.TextOf text.toList (.object ms)) (hobjects : NoFormatObject ms)
    (config : Config) :
    readConfig text = .ok config ↔ assign? ConfigField.all {} ms = some config := by
  obtain ⟨before, value, after⟩ := h
  rename_i s t
  have hrest : (Cursor.start text).skipBlanks.rest = s :=
    rest_skipBlanks (c := .start text) before value.not_blank
  obtain ⟨s, rfl, hahead⟩ := object_ahead value
  have hinside : ((Cursor.start text).skipBlanks.drop 1).rest = s := rest_drop_one hrest
  have hmembers := readMembers_gives hobjects (hinside.symm ▸ hahead) ConfigField.all {}
  unfold readConfig
  dsimp only
  rw [hrest]
  show (readMembers ConfigField.all true {} _ >>= _) = _ ↔ _
  cases hassign : assign? ConfigField.all {} ms with
  | none =>
    rw [hassign] at hmembers
    obtain ⟨e, he⟩ := hmembers
    rw [he]
    exact iff_of_false nofun nofun
  | some config' =>
    rw [hassign] at hmembers
    obtain ⟨behind, hread, hbehind⟩ := hmembers
    have hend : behind.skipBlanks.rest = [] := rest_skipBlanks (hbehind ▸ after) (by simp)
    rw [hread]
    show (if behind.skipBlanks.rest.isEmpty = true then pure config' else _) = _ ↔ _
    rw [hend, List.isEmpty_nil, if_pos rfl]
    exact ⟨fun heq => congrArg some (Except.ok.inj heq),
      fun heq => congrArg Except.ok (Option.some_inj.mp heq)⟩

namespace Config

theorem parse_eq_ok_iff {text : String} {config : Config} :
    parse text = .ok config ↔ readConfig text = .ok config ∧ config.maxCallDepth ≠ 0 := by
  unfold parse
  cases readConfig text with
  | error e => exact iff_of_false nofun (fun h => nomatch h.1)
  | ok config' =>
    dsimp only
    split
    · rename_i hzero
      refine iff_of_false nofun ?_
      rintro ⟨heq, hdepth⟩
      cases heq
      exact hdepth hzero
    · rename_i hdepth
      constructor
      · intro heq
        cases heq
        exact ⟨rfl, hdepth⟩
      · exact fun h => congrArg Except.ok (Except.ok.inj h.1)

/-- The configurations that the text of an object gives. -/
theorem parse_object_eq_ok_iff {text : String} {ms : Members}
    (h : JsonTree.TextOf text.toList (.object ms)) (hobjects : NoFormatObject ms)
    {config : Config} :
    parse text = .ok config ↔
      (ms.map Prod.fst).Nodup ∧
      (∀ m ∈ ms, ∃ field : ConfigField, m.1 = some field.name ∧
        field.ofTree? m.2 = some (config.get field)) ∧
      (∀ field : ConfigField, some field.name ∉ ms.map Prod.fst →
        config.get field = get {} field) ∧
      config.maxCallDepth ≠ 0 := by
  rw [parse_eq_ok_iff, readConfig_object h hobjects, assign?_eq_some_iff (by decide)]
  simp only [ConfigField.mem_all, true_and, and_assoc]

theorem allows_get {config : Config} (h : config.maxCallDepth ≠ 0) (field : ConfigField) :
    field.Allows (config.get field) := by
  cases field with
  | maxCallDepth => exact Nat.pos_of_ne_zero h
  | echoOutput | captureOutput | traceFormat => trivial

/-- A text of an object gives a configuration exactly when no key is there twice, each is the name
of a setting, and each value is one that the setting takes and allows. The configuration then has
these values, and those that are not there are the defaults; how the members are ordered and written
does not matter. Otherwise there is a configuration error. A depth of zero is never accepted. -/
theorem parse_object {text : String} {members : Members}
    (h : JsonTree.TextOf text.toList (.object members)) (hobjects : NoFormatObject members) :
    ((∃ config, parse text = .ok config) ↔
      (members.map Prod.fst).Nodup ∧
      ∀ m ∈ members, ∃ (field : ConfigField) (x : field.Value),
        m.1 = some field.name ∧ field.ofTree? m.2 = some x ∧ field.Allows x) ∧
    (∀ config, parse text = .ok config →
      (∀ m ∈ members, ∀ field : ConfigField, m.1 = some field.name →
        field.ofTree? m.2 = some (config.get field)) ∧
      ∀ field : ConfigField, some field.name ∉ members.map Prod.fst →
        config.get field = get {} field) ∧
    (∀ text' members', JsonTree.TextOf text'.toList (.object members') →
      members'.Perm members → ∀ config, parse text' = .ok config ↔ parse text = .ok config) ∧
    ((¬ ∃ config, parse text = .ok config) →
      ∃ e : ConfigError, parse text = .error e ∧ e.diagnostic.code = some "lfrt::config") ∧
    ∀ anyText config, parse anyText = .ok config → config.maxCallDepth ≠ 0 := by
  have hiff := @parse_object_eq_ok_iff text members h hobjects
  refine ⟨⟨?accepted, ?accepts⟩, ?values, ?order, ?refused, ?depth⟩
  case accepted =>
    rintro ⟨config, hparse⟩
    obtain ⟨hnodup, hgiven, -, hdepth⟩ := hiff.mp hparse
    refine ⟨hnodup, fun m hm => ?_⟩
    obtain ⟨field, hname, hvalue⟩ := hgiven m hm
    exact ⟨field, _, hname, hvalue, allows_get hdepth field⟩
  case accepts =>
    rintro ⟨hnodup, hgiven⟩
    have hopen : ∀ m ∈ members, ∃ field ∈ ConfigField.all, m.1 = some field.name ∧
        ∃ x, field.ofTree? m.2 = some x := by
      intro m hm
      obtain ⟨field, x, hname, hx, -⟩ := hgiven m hm
      exact ⟨field, field.mem_all, hname, x, hx⟩
    obtain ⟨config, hassign⟩ := exists_assign? hnodup hopen {}
    refine ⟨config, parse_eq_ok_iff.mpr ⟨(readConfig_object h hobjects config).mpr hassign, ?_⟩⟩
    obtain ⟨-, hvalues, habsent⟩ := (assign?_eq_some_iff (by decide)).mp hassign
    by_cases hkey : some ConfigField.maxCallDepth.name ∈ members.map Prod.fst
    · obtain ⟨m, hm, hname⟩ := List.mem_map.mp hkey
      obtain ⟨field, x, hfield, hx, hallows⟩ := hgiven m hm
      obtain ⟨field', -, hfield', hx'⟩ := hvalues m hm
      obtain rfl := ConfigField.name_injective (Option.some_inj.mp (hname.symm.trans hfield))
      obtain rfl := ConfigField.name_injective (Option.some_inj.mp (hname.symm.trans hfield'))
      obtain rfl := Option.some_inj.mp (hx.symm.trans hx')
      exact Nat.ne_of_gt hallows
    · have hdefault : config.maxCallDepth = 256 := habsent .maxCallDepth hkey
      rw [hdefault]
      decide
  case values =>
    intro config hparse
    obtain ⟨-, hgiven, habsent, -⟩ := hiff.mp hparse
    refine ⟨fun m hm field hname => ?_, habsent⟩
    obtain ⟨field', hname', hvalue⟩ := hgiven m hm
    obtain rfl := ConfigField.name_injective (Option.some_inj.mp (hname.symm.trans hname'))
    exact hvalue
  case order =>
    intro text' members' h' hperm config
    have hobjects' : NoFormatObject members' := fun m hm => hobjects m (hperm.mem_iff.mp hm)
    have hkeys := hperm.map Prod.fst
    rw [hiff, parse_object_eq_ok_iff h' hobjects', hkeys.nodup_iff]
    simp only [hperm.mem_iff, hkeys.mem_iff]
  case refused =>
    intro hnone
    cases hparse : parse text with
    | error e => exact ⟨e, rfl, rfl⟩
    | ok config => exact absurd ⟨config, hparse⟩ hnone
  case depth =>
    intro anyText config hparse
    exact (parse_eq_ok_iff.mp hparse).2

/-- A text with blanks in it, and with a key that is partly escaped. -/
theorem parse_object_escaped :
    ∃ config, parse "\x7b \"max_call_depth\" : 7 ,\"\\u0065cho_output\":true\x7d" = .ok config ∧
      config.maxCallDepth = 7 ∧ config.echoOutput = true ∧ config.captureOutput = true := by
  have hchars : "\x7b \"max_call_depth\" : 7 ,\"\\u0065cho_output\":true\x7d".toList =
      '\x7b' :: ' ' :: '"' :: ("max_call_depth".toList ++ '"' :: ' ' :: ':' :: ' ' :: '7' :: ' ' ::
        ',' :: '"' :: '\\' :: 'u' :: '0' :: '0' :: '6' :: '5' :: ("cho_output".toList ++
          ['"', ':', 't', 'r', 'u', 'e', '\x7d'])) := rfl
  have hdepthKey (t : List Char) :
      StringText ("max_call_depth".toList ++ '"' :: t) (some "max_call_depth") t :=
    .some (stringRest_plain (by simp) t)
  have hechoKey (t : List Char) : StringText
      ('\\' :: 'u' :: '0' :: '0' :: '6' :: '5' :: ("cho_output".toList ++ '"' :: t))
      (some "echo_output") t :=
    .some (.unit rfl rfl rfl (stringRest_plain (by simp) t))
  have hseven : IsNumber ['7'] := ⟨rfl, trivial⟩
  have htext : JsonTree.TextOf
      "\x7b \"max_call_depth\" : 7 ,\"\\u0065cho_output\":true\x7d".toList
      (.object [(some "max_call_depth", .number ['7']), (some "echo_output", .boolean true)]) := by
    rw [hchars]
    exact .mk (.done _) (.object (.more
      (.mk (.more rfl (.done _)) (hdepthKey _) (.more rfl (.done _))
        (.mk (.more rfl (.done _)) (.number rfl hseven) (.more rfl (.done _))))
      (.last (.mk (.done _) (hechoKey _) (.done _) (.mk (.done _) (.yes _) (.done _))))))
      (.done _)
  have hcount : (JsonTree.number ['7']).count? = some 7 := count?_toDigits (n := 7) (by decide)
  obtain ⟨haccepted, hvalues, -⟩ := parse_object htext (by simp [NoFormatObject])
  have hsettings : ∀ m ∈ [(some "max_call_depth", JsonTree.number ['7']),
      (some "echo_output", JsonTree.boolean true)], ∃ (field : ConfigField) (x : field.Value),
        m.1 = some field.name ∧ field.ofTree? m.2 = some x ∧ field.Allows x := by
    simp only [List.forall_mem_cons]
    exact ⟨⟨.maxCallDepth, 7, rfl, hcount, (by decide : 0 < 7)⟩,
      ⟨.echoOutput, true, rfl, rfl, trivial⟩, by simp⟩
  obtain ⟨config, hparse⟩ := haccepted.mpr ⟨by simp, hsettings⟩
  obtain ⟨hgiven, habsent⟩ := hvalues config hparse
  simp only [List.forall_mem_cons] at hgiven
  obtain ⟨hfirst, hsecond, -⟩ := hgiven
  have hdepth : some config.maxCallDepth = some 7 := (hfirst .maxCallDepth rfl).symm.trans hcount
  have hecho : some config.echoOutput = some true := (hsecond .echoOutput rfl).symm
  exact ⟨config, hparse, Option.some_inj.mp hdepth, Option.some_inj.mp hecho,
    habsent .captureOutput (by simp [ConfigField.name])⟩

end Config
end TracedEval
