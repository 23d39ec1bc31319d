import EdgeFirewall.Proofs.Policy.RoundTrip
import EdgeFirewall.Proofs.Policy.Sound

/-! # Normal forms of policy documents

What becomes of a document when the policy it describes is read and asked for again, unchanged. The
normal form of a document (`Document.normalForm`) leaves out what the service sets, fills in what is
open, and drops what attributes cannot say; it has the same attributes
(`toAttributes_normalForm`), and a policy that is read from these asks for nothing but the normal
form (`toDocument_eq_normalForm`). A selector is one of the things that may be dropped: it is kept
only for the parts of a request that hold keyed entries. -/

namespace EdgeFirewall

/-- Whether a part of a request holds entries that a selector may pick. -/
def MatchVariable.isKeyed : MatchVariable → Bool
  | .cookies | .postArgs | .queryString | .requestHeader => true
  | .remoteAddr | .requestBody | .requestMethod | .requestUri => false

namespace Document

/-! ### Normal forms

`keyed` says of which variables a selector is kept. -/

variable (keyed : MatchVariable → Bool)

/-- A selector is kept if it spells the variable of the condition; where there is no modifier, the
negation tells it, and the modifier tells the negation. -/
def Condition.normalForm (c : Condition) : Condition :=
  let modifier := c.modifier.getD (if c.negate = some true then .isNot else .is)
  { c with
    selector := c.selector.filter fun s => s == c.matchVariable.spelling && keyed c.matchVariable
    negate := some modifier.isNegated
    modifier := some modifier
    transforms := some (c.transforms.getD []) }

def Rule.normalForm (r : Rule) : Rule :=
  { r with
    enabledState := some (r.enabledState.getD .enabled)
    rateLimitMinutes := some (r.rateLimitMinutes.getD 1)
    rateLimitThreshold := some (r.rateLimitThreshold.getD 10)
    conditions := r.conditions.map (·.normalForm keyed) }

def RuleOverride.normalForm (r : RuleOverride) : RuleOverride :=
  { r with enabledState := some (r.enabledState.getD .disabled) }

def GroupOverride.normalForm (g : GroupOverride) : GroupOverride :=
  { g with rules := some ((g.rules.getD []).map RuleOverride.normalForm) }

def RuleSet.normalForm (s : RuleSet) : RuleSet :=
  { s with overrides := Policy.nonEmpty? ((s.overrides.getD []).map GroupOverride.normalForm) }

def Settings.normalForm (s : Settings) : Settings :=
  { s with enabledState := some (s.enabledState.getD .enabled) }

/-- The custom rules of a policy, none if no list of them is there. -/
def Properties.ruleList (p : Properties) : List Rule :=
  (p.customRules.bind RuleList.rules).getD []

/-- The managed rule sets of a policy, none if no list of them is there. -/
def Properties.ruleSetList (p : Properties) : List RuleSet :=
  (p.managedRules.bind RuleSetList.ruleSets).getD []

/-- Lists of rules and of rule sets are left out if they are empty, and links that link nothing. -/
def Properties.normalForm (p : Properties) : Properties where
  settings := p.settings.map Settings.normalForm
  customRules := (Policy.nonEmpty? (p.ruleList.map (·.normalForm keyed))).map fun rs => ⟨some rs⟩
  managedRules := (Policy.nonEmpty? (p.ruleSetList.map RuleSet.normalForm)).map fun ss => ⟨some ss⟩
  endpointLinks := some ((p.endpointLinks.getD []).filter (·.id.isSome))

/-- The normal form of a document. -/
def normalForm (d : Document) : Document where
  location := some "Global"
  tags := some (d.tags.getD .empty)
  properties := d.properties.map (·.normalForm keyed)

end Document

/-! ### Entries of maps that were written -/

theorem Attributes.lookup_entry? {α : Type} {key k : String} {write : α → Value} {o : Option α} :
    (Attributes.entry? k write o).lookup key = if key = k then o.map write else none := by
  cases o with
  | none => simp [Attributes.entry?]
  | some a =>
      by_cases h : key = k
      · simp [Attributes.entry?, h]
      · have hne : (key == k) = false := by simpa using h
        simp [Attributes.entry?, List.lookup_cons, h, hne]

namespace Reading

variable {α β : Type}

/-- Whatever is read from something written is that again. -/
def Undoes (read : Reading α) (write : α → Value) : Prop :=
  ∀ ⦃path y x⦄, read path (write y) = .ok x → x = y

theorem text_undoes : text.Undoes .string := by
  intro path y x h
  exact (Value.string.inj (text_eq_ok_iff.mp h).1).symm

theorem truth_undoes : truth.Undoes .bool := by
  intro path y x h
  exact (Value.bool.inj (truth_eq_ok_iff.mp h)).symm

theorem number_undoes (least most : Int) :
    (number least most).Undoes Document.numberValue := by
  intro path y x h
  exact (Int32.toInt_inj.mp (Value.int.inj (number_eq_ok_iff.mp h).1)).symm

theorem word_undoes [Vocabulary α] [Vocabulary.Dotless α] :
    (word (α := α)).Undoes Document.wordValue := by
  intro path y x h
  exact Checked.ok_inj.mp (h.symm.trans (word_wordValue path y))

theorem Undoes.suchThat {read : Reading α} {write : α → Value} (h : read.Undoes write)
    (test : α → Bool) (reason : α → Reason) : (read.suchThat test reason).Undoes write :=
  fun _ _ _ hx => h (suchThat_eq_ok_iff.mp hx).1

theorem Undoes.listOf {read : Reading α} [∀ path v, (read path v).IsExplained]
    {write : α → Value} (h : read.Undoes write) {least most : Nat} {path : Path} {xs ys : List α}
    (hxs : Reading.listOf least most read path (.list (ys.map write)) = .ok xs) : xs = ys := by
  obtain ⟨items, hitems, -, hcollect⟩ := listOf_eq_ok_iff.mp hxs
  rw [← Value.list.inj hitems, List.zipIdx_map, Checked.collect_map] at hcollect
  have hmap := Checked.map_eq_map_of_collect (F := fun e : α × Nat => e.1) (w := id)
    (fun e x hx => (h hx).symm) hcollect
  rw [List.map_id, List.zipIdx_map_fst] at hmap
  exact hmap.symm

end Reading

namespace Block

variable {α β γ δ : Type}

/-- What holds of each block that was written, and of what is read from it, holds of lists. -/
theorem map_eq_map_of_listOf {read : Block → Checked α} [∀ b, (read b).IsExplained]
    {write : δ → Attributes} {F : α → γ} {G : δ → γ}
    (h : ∀ {path d x}, read ⟨path, write d⟩ = .ok x → F x = G d) {most : Nat}
    {path : Path} {xs : List α} {ds : List δ}
    (hxs : Block.listOf most read path (.list (ds.map fun d => .map (write d))) = .ok xs) :
    xs.map F = ds.map G := by
  obtain ⟨maps, hmaps, -, hcollect⟩ := listOf_eq_ok_iff.mp hxs
  have hwritten : maps = ds.map write := by
    have hlist := Value.list.inj hmaps
    rw [← Function.comp_def, ← List.map_map] at hlist
    exact ((List.map_inj_right fun _ _ heq => Value.map.inj heq).mp hlist).symm
  rw [hwritten, List.zipIdx_map, Checked.collect_map] at hcollect
  have hmap := Checked.map_eq_map_of_collect (F := fun e : δ × Nat => G e.1) (w := F)
    (fun e x hx => (h hx).symm) hcollect
  rw [map_zipIdx_fst] at hmap
  exact hmap.symm

end Block

/-! ### The attributes of normal forms -/

namespace Document

theorem Condition.ownSelector?_eq_some_iff {c : Condition} {s : SelectorVariable} :
    c.ownSelector? = some s ↔ c.selector = some s.spelling ∧ s.matchVariable = c.matchVariable := by
  unfold ownSelector?
  rw [Option.filter_eq_some_iff, beq_iff_eq, Option.bind_eq_some_iff]
  constructor
  · rintro ⟨⟨text, htext, hs⟩, hvariable⟩
    rw [htext, ← Vocabulary.ofSpelling?_eq_some_iff.mp hs]
    exact ⟨rfl, hvariable⟩
  · rintro ⟨htext, hvariable⟩
    exact ⟨⟨_, htext, Vocabulary.ofSpelling?_spelling s⟩, hvariable⟩

theorem isKeyed_matchVariable (s : SelectorVariable) : s.matchVariable.isKeyed = true := by
  cases s <;> rfl

theorem exists_matchVariable_of_isKeyed {v : MatchVariable} (h : v.isKeyed = true) :
    ∃ s : SelectorVariable, s.matchVariable = v := by
  cases v with
  | cookies => exact ⟨.cookies, rfl⟩
  | postArgs => exact ⟨.postArgs, rfl⟩
  | queryString => exact ⟨.queryString, rfl⟩
  | requestHeader => exact ⟨.requestHeader, rfl⟩
  | _ => simp [MatchVariable.isKeyed] at h

/-- The normal form keeps the selectors that attributes can say. -/
theorem Condition.selector_normalForm (c : Condition) :
    (c.normalForm MatchVariable.isKeyed).selector =
      c.ownSelector?.map SelectorVariable.spelling := by
  change c.selector.filter _ = _
  cases hown : c.ownSelector? with
  | some s =>
      obtain ⟨htext, hvariable⟩ := ownSelector?_eq_some_iff.mp hown
      rw [htext, Option.map_some, Option.filter_some, ← hvariable, isKeyed_matchVariable,
        s.spelling_matchVariable]
      simp
  | none =>
      rw [Option.map_none, Option.filter_eq_none_iff]
      intro text htext hkept
      rw [Bool.and_eq_true, beq_iff_eq] at hkept
      obtain ⟨s, hs⟩ := exists_matchVariable_of_isKeyed hkept.2
      have hspelled : c.selector = some s.spelling := by
        rw [htext, hkept.1, ← hs, s.spelling_matchVariable]
      rw [ownSelector?_eq_some_iff.mpr ⟨hspelled, hs⟩] at hown
      cases hown

theorem Condition.ownSelector?_normalForm (c : Condition) :
    (c.normalForm MatchVariable.isKeyed).ownSelector? = c.ownSelector? := by
  apply Option.ext
  intro s
  rw [ownSelector?_eq_some_iff, selector_normalForm, Option.map_eq_some_iff]
  constructor
  · rintro ⟨⟨t, hown, hspelling⟩, -⟩
    rw [hown, Vocabulary.spelling_injective t s hspelling]
  · intro hown
    exact ⟨⟨s, hown, rfl⟩, (ownSelector?_eq_some_iff.mp hown).2⟩

theorem Condition.modifier_normalForm (c : Condition) :
    (c.normalForm keyed).modifier = some c.effectiveModifier := by
  unfold normalForm effectiveModifier
  cases c.negate with
  | none => rfl
  | some negated => cases negated <;> rfl

theorem Condition.toAttributes_normalForm (c : Condition) :
    (c.normalForm MatchVariable.isKeyed).toAttributes = c.toAttributes := by
  have hmodifier :
      (c.normalForm MatchVariable.isKeyed).effectiveModifier = c.effectiveModifier := by
    rw [effectiveModifier, modifier_normalForm, Option.getD_some]
  unfold toAttributes
  rw [ownSelector?_normalForm, hmodifier]
  rfl

theorem Rule.toAttributes_normalForm (r : Rule) :
    (r.normalForm MatchVariable.isKeyed).toAttributes = r.toAttributes := by
  have hconditions : (r.conditions.map (·.normalForm MatchVariable.isKeyed)).map
      (fun c => Value.map c.toAttributes) = r.conditions.map fun c => .map c.toAttributes := by
    rw [List.map_map]
    exact List.map_congr_left fun c _ => congrArg _ c.toAttributes_normalForm
  unfold toAttributes
  dsimp only [normalForm]
  rw [hconditions]
  cases r.enabledState <;> cases r.rateLimitMinutes <;> cases r.rateLimitThreshold <;> rfl

theorem RuleOverride.toAttributes_normalForm (r : RuleOverride) :
    r.normalForm.toAttributes = r.toAttributes := by
  unfold toAttributes normalForm
  cases r.enabledState <;> rfl

theorem GroupOverride.toAttributes_normalForm (g : GroupOverride) :
    g.normalForm.toAttributes = g.toAttributes := by
  unfold toAttributes normalForm
  simp only [Option.getD_some, List.map_map, Function.comp_def,
    RuleOverride.toAttributes_normalForm]

theorem RuleSet.toAttributes_normalForm (s : RuleSet) :
    s.normalForm.toAttributes = s.toAttributes := by
  unfold toAttributes normalForm
  simp only [Policy.getD_nonEmpty?, List.map_map, Function.comp_def,
    GroupOverride.toAttributes_normalForm]

theorem ruleList_normalForm (p : Properties) :
    (p.normalForm keyed).ruleList = p.ruleList.map (·.normalForm keyed) := by
  change ((Option.map _ _).bind RuleList.rules).getD [] = _
  cases p.ruleList <;> rfl

theorem ruleSetList_normalForm (p : Properties) :
    (p.normalForm keyed).ruleSetList = p.ruleSetList.map RuleSet.normalForm := by
  change ((Option.map _ _).bind RuleSetList.ruleSets).getD [] = _
  cases p.ruleSetList <;> rfl

theorem endpointIds_filter (links : List EndpointLink) :
    endpointIds (links.filter (·.id.isSome)) = endpointIds links := by
  induction links with
  | nil => rfl
  | cons link rest ih =>
      obtain ⟨id⟩ := link
      unfold endpointIds at ih ⊢
      cases id with
      | none => exact ih
      | some id => exact congrArg (id :: ·) ih

theorem map_endpointIds (links : List EndpointLink) :
    (endpointIds links).map (fun id => EndpointLink.mk (some id)) =
      links.filter (·.id.isSome) := by
  induction links with
  | nil => rfl
  | cons link rest ih =>
      obtain ⟨id⟩ := link
      unfold endpointIds at ih ⊢
      cases id with
      | none => exact ih
      | some id => exact congrArg (_ :: ·) ih

theorem attributesIn_normalForm {d : Document} {p : Properties} (hp : d.properties = some p)
    (mode : PolicyMode) (name group : String) :
    (d.normalForm MatchVariable.isKeyed).attributesIn mode name group =
      d.attributesIn mode name group := by
  have hrules : (p.normalForm MatchVariable.isKeyed).ruleList.map
      (fun r => Value.map r.toAttributes) = p.ruleList.map fun r => .map r.toAttributes := by
    rw [ruleList_normalForm, List.map_map]
    exact List.map_congr_left fun r _ => congrArg _ r.toAttributes_normalForm
  have hsets : (p.normalForm MatchVariable.isKeyed).ruleSetList.map
      (fun s => Value.map s.toAttributes) = p.ruleSetList.map fun s => .map s.toAttributes := by
    rw [ruleSetList_normalForm, List.map_map]
    exact List.map_congr_left fun s _ => congrArg _ s.toAttributes_normalForm
  unfold Properties.ruleList at hrules
  unfold Properties.ruleSetList at hsets
  simp only [attributesIn, normalForm, hp, Option.map_some, Option.getD_some, hrules, hsets]
  dsimp only [Properties.normalForm]
  rw [Option.getD_some, endpointIds_filter]
  cases p.settings with
  | none => rfl
  | some settings =>
      obtain ⟨enabledState, mode', redirectUrl, code, body⟩ := settings
      cases enabledState <;> rfl

theorem mode?_normalForm (d : Document) : (d.normalForm keyed).mode? = d.mode? := by
  unfold mode? normalForm
  cases d.properties with
  | none => rfl
  | some p =>
      simp only [Option.map_some, Option.bind_some, Properties.normalForm]
      cases p.settings <;> rfl

/-- A document and its normal form have the same attributes. -/
theorem toAttributes_normalForm (d : Document) (name group : String) :
    (d.normalForm MatchVariable.isKeyed).toAttributes name group = d.toAttributes name group := by
  unfold toAttributes
  rw [mode?_normalForm]
  cases hmode : d.mode? with
  | none => rfl
  | some mode =>
      cases hp : d.properties with
      | none => simp [mode?, hp] at hmode
      | some p => exact congrArg Except.ok (attributesIn_normalForm hp mode name group)

end Document

/-! ### Reading what was written into a block -/

namespace Block

open Reading

variable {α γ δ : Type} {b : Block} {key : String} {read : Reading α} {write : α → Value} {x y : α}

theorem required_undoes (h : read.Undoes write) (hv : b.entries.lookup key = some (write y))
    (hx : b.required key read = .ok x) : x = y := by
  rw [required, hv] at hx
  exact h hx

theorem withDefault_undoes {default : α} (h : read.Undoes write)
    (hv : b.entries.lookup key = some (write y)) (hx : b.withDefault key default read = .ok x) :
    x = y := by
  rw [withDefault, hv] at hx
  exact h hx

theorem optional_undoes [∀ path v, (read path v).IsExplained] {o o' : Option α}
    (h : read.Undoes write) (hv : b.entries.lookup key = o'.map write)
    (ho : b.optional key read = .ok o) : o = o' := by
  rw [optional, hv] at ho
  cases o' with
  | none => exact (Checked.ok_inj.mp ho).symm
  | some y =>
      obtain ⟨x, hx, rfl⟩ := Checked.attempt_eq_ok_iff.mp ho
      rw [h hx]

theorem list_undoes [∀ path v, (read path v).IsExplained] {least most : Nat} {xs ys : List α}
    (h : read.Undoes write) (hv : b.entries.lookup key = some (.list (ys.map write)))
    (hxs : b.list key least most read = .ok xs) : xs = ys := by
  rw [list, hv, Option.getD_some] at hxs
  exact h.listOf hxs

theorem blocks_undoes {read : Block → Checked α} [∀ b, (read b).IsExplained]
    {write : δ → Attributes} {F : α → γ} {G : δ → γ}
    (h : ∀ {path d x}, read ⟨path, write d⟩ = .ok x → F x = G d) {most : Nat} {xs : List α}
    {ds : List δ} (hv : b.entries.lookup key = some (.list (ds.map fun d => .map (write d))))
    (hxs : b.blocks key most read = .ok xs) : xs.map F = ds.map G := by
  rw [blocks, hv, Option.getD_some] at hxs
  exact map_eq_map_of_listOf h hxs

end Block

/-! ### The entries of documents -/

namespace Document

open Policy

section

variable (d : Condition)

theorem Condition.lookup_selector :
    d.toAttributes.lookup "selector" = d.ownSelector?.map wordValue := by
  unfold toAttributes
  cases d.ownSelector? <;> rfl

theorem Condition.lookup_matchVariable : d.toAttributes.lookup "match_variable" =
    (if d.ownSelector?.isNone then some d.matchVariable else none).map wordValue := by
  unfold toAttributes
  cases d.ownSelector? <;> rfl

theorem Condition.lookup_operator :
    d.toAttributes.lookup "operator" = some (wordValue d.operator) := by
  unfold toAttributes
  cases d.ownSelector? <;> rfl

theorem Condition.lookup_transforms :
    d.toAttributes.lookup "transforms" = some (.list ((d.transforms.getD []).map wordValue)) := by
  unfold toAttributes
  cases d.ownSelector? <;> rfl

end

section

variable (d : Rule)

theorem Rule.lookup_body :
    d.toAttributes.lookup "custom_block_response_body" = d.blockBody.map .string := by
  unfold toAttributes
  cases d.blockBody <;> rfl

/-- The entry that may be left out stands in no other entry's way. -/
theorem Rule.lookup_other {key : String} (hkey : key ≠ "custom_block_response_body") :
    d.toAttributes.lookup key =
      ({ d with blockBody := none } : Document.Rule).toAttributes.lookup key := by
  have hne : (key == "custom_block_response_body") = false := by simpa using hkey
  unfold toAttributes
  cases d.blockBody with
  | none => rfl
  | some body => simp [Attributes.entry?, List.lookup_cons, hne]

theorem int_getD (n : Option Int32) (default : Int32) :
    Value.int ((n.map Int32.toInt).getD default.toInt) = numberValue (n.getD default) := by
  cases n <;> rfl

theorem Rule.lookup_minutes : d.toAttributes.lookup "rate_limit_duration_in_minutes" =
    some (numberValue (d.rateLimitMinutes.getD 1)) := by
  rw [lookup_other d (by decide), ← int_getD]
  rfl

theorem Rule.lookup_threshold : d.toAttributes.lookup "rate_limit_threshold" =
    some (numberValue (d.rateLimitThreshold.getD 10)) := by
  rw [lookup_other d (by decide), ← int_getD]
  rfl

end

section

variable {d : Document} {properties : Properties} {settings : Settings} {mode : PolicyMode}
  {name group : String} (hproperties : d.properties = some properties)
  (hsettings : properties.settings = some settings)

include hproperties hsettings

theorem lookup_attributesIn_redirectUrl :
    (d.attributesIn mode name group).lookup "redirect_url" = settings.redirectUrl.map .string := by
  simp [attributesIn, hproperties, hsettings, List.lookup_append, List.lookup_cons,
    Attributes.lookup_entry?]

theorem lookup_attributesIn_statusCode :
    (d.attributesIn mode name group).lookup "custom_block_response_status_code" =
      settings.blockStatusCode.map numberValue := by
  simp [attributesIn, hproperties, hsettings, List.lookup_append, List.lookup_cons,
    Attributes.lookup_entry?]

theorem lookup_attributesIn_body :
    (d.attributesIn mode name group).lookup "custom_block_response_body" =
      settings.blockBody.map .string := by
  simp [attributesIn, hproperties, hsettings, List.lookup_append, List.lookup_cons,
    Attributes.lookup_entry?]

/-- The entries of a policy that may be left out. -/
def optionalKeys : List String :=
  ["custom_block_response_body", "custom_block_response_status_code", "redirect_url"]

/-- The entries that may be left out stand in no other entry's way. -/
theorem lookup_attributesIn_other {key : String} (hkey : key ∉ optionalKeys) :
    (d.attributesIn mode name group).lookup key =
      (({ d with properties := some { properties with
          settings := some { enabledState := settings.enabledState } } } :
        Document).attributesIn mode name group).lookup key := by
  simp only [optionalKeys, List.mem_cons, List.not_mem_nil, or_false, not_or] at hkey
  simp [attributesIn, hproperties, hsettings, List.lookup_append, List.lookup_cons,
    Attributes.lookup_entry?, hkey]

end

end Document

/-! ### Reading the attributes of documents -/

namespace Policy

open Reading Block Document

variable {path : Path}

/-- What is read as the target of a condition says the variable and the selector. -/
theorem Condition.target_of_ofBlock {d : Document.Condition} {c : Condition}
    (h : Target.ofBlock ⟨path, d.toAttributes⟩ = .ok c.target) :
    c.target.matchVariable = d.matchVariable ∧
      c.toDocument.selector = d.ownSelector?.map SelectorVariable.spelling := by
  have hselector := d.lookup_selector
  have hvariable := d.lookup_matchVariable
  rw [Target.ofBlock_eq_ok_iff] at h
  unfold toDocument
  cases ht : c.target with
  | whole v =>
      rw [ht] at h
      have hnone : d.ownSelector? = none := by
        rw [← Option.map_eq_none_iff, ← hselector]
        exact h.2
      rw [hnone] at hvariable ⊢
      exact ⟨required_undoes word_undoes hvariable h.1, rfl⟩
  | keyed s =>
      rw [ht] at h
      cases hown : d.ownSelector? with
      | none => simp [hown, hvariable] at h
      | some t =>
          rw [hown] at hselector
          rw [required_undoes word_undoes hselector h.1]
          exact ⟨(Condition.ownSelector?_eq_some_iff.mp hown).2, rfl⟩

theorem Condition.toDocument_of_ofBlock {d : Document.Condition} {c : Condition}
    (h : ofBlock ⟨path, d.toAttributes⟩ = .ok c) :
    c.toDocument = d.normalForm MatchVariable.isKeyed := by
  obtain ⟨-, htarget, hoperator, hmodifier, hvalues, htransforms⟩ := ofBlock_eq_ok_iff.mp h
  have hop : c.operator = d.operator :=
    required_undoes word_undoes d.lookup_operator hoperator
  have htr : c.transforms = d.transforms.getD [] :=
    list_undoes word_undoes d.lookup_transforms htransforms
  have hmod : c.modifier = d.effectiveModifier := withDefault_undoes word_undoes rfl hmodifier
  have hval : c.values = d.values := list_undoes text_undoes rfl hvalues
  obtain ⟨hvar, hsel⟩ := target_of_ofBlock htarget
  have hselected := hsel.trans d.selector_normalForm.symm
  have hmodified : some c.modifier = (d.normalForm MatchVariable.isKeyed).modifier := by
    rw [d.modifier_normalForm, hmod]
  have hnegated := congrArg (Option.map ConditionModifier.isNegated) hmodified
  exact (Document.Condition.mk.injEq ..).mpr
    ⟨hvar, hselected, hop, hnegated, hmodified, hval, congrArg some htr⟩

theorem ofBool_getD (state : Option EnabledState) (default : EnabledState) :
    EnabledState.ofBool ((state.map EnabledState.isEnabled).getD default.isEnabled) =
      state.getD default := by
  cases state <;> simp

theorem Rule.toDocument_of_ofBlock {d : Document.Rule} {r : Rule}
    (h : ofBlock ⟨path, d.toAttributes⟩ = .ok r) :
    r.toDocument = d.normalForm MatchVariable.isKeyed := by
  obtain ⟨-, hname, hpriority, henabled, htype, hminutes, hthreshold, haction, hbody,
    hconditions⟩ := ofBlock_eq_ok_iff.mp h
  have lookup_other : ∀ key, key ≠ "custom_block_response_body" → d.toAttributes.lookup key =
      ({ d with blockBody := none } : Document.Rule).toAttributes.lookup key :=
    fun _ => d.lookup_other
  have hn : r.name = d.name.getD "" :=
    required_undoes text_undoes (lookup_other _ (by decide)) hname
  have hnamed : some r.name = d.name := by
    have hfilled := required_ensures text_ensures hname
    rw [hn] at hfilled ⊢
    cases hd : d.name with
    | some name => rfl
    | none => simp [hd, IsFilled, Text.isBlankText] at hfilled
  have hp : r.priority = d.priority :=
    withDefault_undoes (number_undoes _ _) (lookup_other _ (by decide)) hpriority
  have he : r.enabled = (d.enabledState.map EnabledState.isEnabled).getD true :=
    withDefault_undoes truth_undoes (lookup_other _ (by decide)) henabled
  have hstate := (congrArg EnabledState.ofBool he).trans (ofBool_getD d.enabledState .enabled)
  have ht : r.ruleType = d.ruleType :=
    required_undoes word_undoes (lookup_other _ (by decide)) htype
  have hm : r.rateLimitMinutes = d.rateLimitMinutes.getD 1 :=
    withDefault_undoes (number_undoes _ _) d.lookup_minutes hminutes
  have hth : r.rateLimitThreshold = d.rateLimitThreshold.getD 10 :=
    withDefault_undoes (number_undoes _ _) d.lookup_threshold hthreshold
  have ha : r.action = d.action :=
    required_undoes word_undoes (lookup_other _ (by decide)) haction
  have hb : r.blockBody = d.blockBody :=
    optional_undoes (text_undoes.suchThat _ _) d.lookup_body hbody
  have hc : r.conditions.map Condition.toDocument =
      d.conditions.map (·.normalForm MatchVariable.isKeyed) :=
    blocks_undoes Condition.toDocument_of_ofBlock (lookup_other _ (by decide)) hconditions
  exact (Document.Rule.mk.injEq ..).mpr ⟨hnamed, hp, congrArg some hstate, ht, congrArg some hm,
    congrArg some hth, hc, ha, hb⟩

theorem RuleOverride.toDocument_of_ofBlock {d : Document.RuleOverride} {r : RuleOverride}
    (h : ofBlock ⟨path, d.toAttributes⟩ = .ok r) : r.toDocument = d.normalForm := by
  obtain ⟨-, hid, henabled, haction⟩ := ofBlock_eq_ok_iff.mp h
  cases hd : d.action with
  | none => simp [Document.RuleOverride.toAttributes, hd, required, Attributes.entry?,
      List.lookup_cons] at haction
  | some action =>
      unfold Document.RuleOverride.toAttributes at hid henabled haction
      rw [hd] at hid henabled haction
      have hi : r.ruleId = d.ruleId := required_undoes text_undoes rfl hid
      have he : r.enabled = (d.enabledState.map EnabledState.isEnabled).getD false :=
        withDefault_undoes truth_undoes rfl henabled
      have hstate := (congrArg EnabledState.ofBool he).trans (ofBool_getD d.enabledState .disabled)
      have ha : r.action = action := required_undoes word_undoes rfl haction
      refine (Document.RuleOverride.mk.injEq ..).mpr ⟨hi, congrArg some hstate, ?_⟩
      rw [ha, hd]

theorem GroupOverride.toDocument_of_ofBlock {d : Document.GroupOverride} {g : GroupOverride}
    (h : ofBlock ⟨path, d.toAttributes⟩ = .ok g) : g.toDocument = d.normalForm := by
  obtain ⟨-, hgroup, hrules⟩ := ofBlock_eq_ok_iff.mp h
  have hg : g.group = d.group := required_undoes text_undoes rfl hgroup
  have hr : g.rules.map RuleOverride.toDocument =
      (d.rules.getD []).map Document.RuleOverride.normalForm :=
    blocks_undoes RuleOverride.toDocument_of_ofBlock rfl hrules
  exact (Document.GroupOverride.mk.injEq ..).mpr ⟨hg, congrArg some hr⟩

theorem RuleSet.toDocument_of_ofBlock {d : Document.RuleSet} {s : RuleSet}
    (h : ofBlock ⟨path, d.toAttributes⟩ = .ok s) : s.toDocument = d.normalForm := by
  obtain ⟨-, htype, hversion, hoverrides⟩ := ofBlock_eq_ok_iff.mp h
  have ht : s.type = d.type := required_undoes text_undoes rfl htype
  have hv : s.version = d.version := required_undoes text_undoes rfl hversion
  have ho : s.overrides.map GroupOverride.toDocument =
      (d.overrides.getD []).map Document.GroupOverride.normalForm :=
    blocks_undoes GroupOverride.toDocument_of_ofBlock rfl hoverrides
  exact (Document.RuleSet.mk.injEq ..).mpr ⟨ht, hv, congrArg nonEmpty? ho⟩

theorem tagsOf_undoes : Reading.Undoes tagsOf fun t => .map (tagAttributes t) := by
  intro path t t' h
  obtain ⟨es, hes, rfl⟩ := tagsOf_eq_ok_iff.mp h
  have hentries : t.entries = es :=
    (List.map_inj_right fun _ _ heq => by simpa [Prod.ext_iff] using heq).mp (Value.map.inj hes)
  rw [← hentries, Tags.ofList_entries]

/-- A policy that is read from the attributes of a document asks for its normal form. -/
theorem toDocument_of_ofBlock {d : Document} {properties : Properties}
    {settings : Document.Settings} {mode : PolicyMode} {name group : String} {p : Policy}
    (hproperties : d.properties = some properties) (hsettings : properties.settings = some settings)
    (hmode : settings.mode = some mode)
    (h : ofBlock ⟨path, d.attributesIn mode name group⟩ = .ok p) :
    p.toDocument = d.normalForm MatchVariable.isKeyed := by
  obtain ⟨-, -, henabled, hpmode, hredirect, hcode, hbody, hrules, hsets, hendpoints, htags⟩ :=
    ofBlock_eq_ok_iff.mp h
  obtain ⟨hblocks, -⟩ := rulesOf_eq_ok_iff.mp hrules
  have lookup_other : ∀ key, key ∉ optionalKeys →
      (d.attributesIn mode name group).lookup key = _ :=
    fun _ => lookup_attributesIn_other hproperties hsettings
  have hm : p.mode = mode := required_undoes word_undoes (lookup_other _ (by decide)) hpmode
  have he : p.enabled = (settings.enabledState.map EnabledState.isEnabled).getD true :=
    withDefault_undoes truth_undoes (lookup_other _ (by decide)) henabled
  have hstate :=
    (congrArg EnabledState.ofBool he).trans (ofBool_getD settings.enabledState .enabled)
  have hu : p.redirectUrl = settings.redirectUrl :=
    optional_undoes text_undoes (lookup_attributesIn_redirectUrl hproperties hsettings) hredirect
  have hc : p.blockStatusCode = settings.blockStatusCode :=
    optional_undoes ((number_undoes _ _).suchThat _ _)
      (lookup_attributesIn_statusCode hproperties hsettings) hcode
  have hb : p.blockBody = settings.blockBody :=
    optional_undoes (text_undoes.suchThat _ _)
      (lookup_attributesIn_body hproperties hsettings) hbody
  have hr : p.rules.map Rule.toDocument =
      properties.ruleList.map (·.normalForm MatchVariable.isKeyed) :=
    blocks_undoes Rule.toDocument_of_ofBlock (lookup_other _ (by decide)) hblocks
  have hs : p.ruleSets.map RuleSet.toDocument =
      properties.ruleSetList.map Document.RuleSet.normalForm :=
    blocks_undoes RuleSet.toDocument_of_ofBlock (lookup_other _ (by decide)) hsets
  have hl : p.endpoints = endpointIds (properties.endpointLinks.getD []) :=
    list_undoes text_undoes (lookup_other _ (by decide)) hendpoints
  have ht : p.tags = d.tags.getD .empty :=
    withDefault_undoes tagsOf_undoes (lookup_other _ (by decide)) htags
  have hsettled : p.settings = settings.normalForm :=
    (Document.Settings.mk.injEq ..).mpr
      ⟨congrArg some hstate, (congrArg some hm).trans hmode.symm, hu, hc, hb⟩
  unfold toDocument Document.normalForm
  rw [hproperties, hsettled, hr, hs, hl, ht]
  unfold Properties.normalForm
  rw [Option.map_some, hsettings, ← map_endpointIds]
  rfl

/-- Reading a document and asking again for the policy that was read gives the normal form of the
document, and leaves its attributes as they were. -/
theorem toDocument_eq_normalForm {d : Document} {name group : String} {m : Attributes} {p : Policy}
    (hm : d.toAttributes name group = .ok m) (hp : ofAttributes m = .ok p) :
    p.toDocument = d.normalForm MatchVariable.isKeyed ∧
      p.toDocument.toAttributes name group = .ok m := by
  have hdocument : p.toDocument = d.normalForm MatchVariable.isKeyed := by
    unfold Document.toAttributes at hm
    cases hmode : d.mode? with
    | none => simp [hmode] at hm
    | some mode =>
        rw [hmode, Except.ok.injEq] at hm
        obtain ⟨settings, hsettings, hset⟩ := Option.bind_eq_some_iff.mp hmode
        obtain ⟨properties, hproperties, hgiven⟩ := Option.bind_eq_some_iff.mp hsettings
        rw [← hm] at hp
        exact toDocument_of_ofBlock hproperties hgiven hset (ofAttributes_eq_ok_iff.mp hp)
  refine ⟨hdocument, ?_⟩
  rw [hdocument, toAttributes_normalForm, hm]

/-- The document of a policy whose rule looks for one text in a header and in the body of requests.
Each condition spells its own variable as its selector, but a body holds no keyed entries. -/
def bodySelectorDocument : Document where
  etag := some "7"
  properties := some {
    settings := some { mode := some .detection }
    customRules := some {
      rules := some [{
        name := some "agents"
        priority := 1
        ruleType := .matchRule
        conditions := [
          { matchVariable := .requestHeader, selector := some "RequestHeader",
            operator := .contains, negate := some true, values := ["curl"] },
          { matchVariable := .requestBody, selector := some "RequestBody",
            operator := .contains, values := ["curl"] }]
        action := .block }] }
    endpointLinks := some [⟨none⟩, ⟨some "web"⟩] }

theorem toDocument_eq_normalForm_body_selector :
    ∃ m p, bodySelectorDocument.toAttributes "edge" "web" = .ok m ∧ ofAttributes m = .ok p ∧
      p.toDocument = bodySelectorDocument.normalForm MatchVariable.isKeyed ∧
      p.toDocument.toAttributes "edge" "web" = .ok m := by
  have hm : bodySelectorDocument.toAttributes "edge" "web" =
      .ok (bodySelectorDocument.attributesIn .detection "edge" "web") := rfl
  have hvalid : (ofAttributes
      (bodySelectorDocument.attributesIn .detection "edge" "web")).isOk = true := by
    decide +kernel
  obtain ⟨p, hp⟩ := exists_of_isOk hvalid
  obtain ⟨hnormal, hagain⟩ := toDocument_eq_normalForm hm hp
  exact ⟨_, p, hm, hp, hnormal, hagain⟩

/-- A selector that spells the variable of its condition may get lost nevertheless. -/
theorem not_toDocument_eq_normalForm_of_spelled :
    ¬ ∀ (d : Document) (name group : String) (m : Attributes) (p : Policy),
      d.toAttributes name group = .ok m → ofAttributes m = .ok p →
        p.toDocument = d.normalForm (fun _ => true) ∧
          p.toDocument.toAttributes name group = .ok m := by
  intro h
  have hm : bodySelectorDocument.toAttributes "edge" "web" =
      .ok (bodySelectorDocument.attributesIn .detection "edge" "web") := rfl
  have hvalid : (ofAttributes
      (bodySelectorDocument.attributesIn .detection "edge" "web")).isOk = true := by
    decide +kernel
  have hlost : (ofAttributes
      (bodySelectorDocument.attributesIn .detection "edge" "web")).toOption.map toDocument ≠
        some (bodySelectorDocument.normalForm fun _ => true) := by
    decide +kernel
  obtain ⟨p, hp⟩ := exists_of_isOk hvalid
  rw [hp] at hlost
  exact hlost (congrArg some (h _ _ _ _ p hm hp).1)

end Policy

end EdgeFirewall
