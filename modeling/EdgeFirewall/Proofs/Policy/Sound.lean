import EdgeFirewall.Policy.Document
import EdgeFirewall.Proofs.Policy.Canonical

/-! # Sound documents

What the service may rely on in a document that asks for a policy (`Document.Sound`): every member
that must be there is there, every number, text and word is one that it takes, and no list is
empty or too long. A policy that was read from attributes has only such documents
(`sound_toDocument`): each bound that a reading checks is one that the document needs, and is carried
from the items to the lists (`Reading.Ensures`). -/

namespace EdgeFirewall

namespace Document

/-! ### What a sound document has -/

/-- A text in base64 that is not empty. -/
def IsBody (s : String) : Prop :=
  s ≠ "" ∧ Text.isBase64 s = true

/-- A text that is not blank. -/
def IsFilled (s : String) : Prop :=
  Text.isBlankText s = false

structure Condition.Sound (c : Condition) : Prop where
  valueCount : 1 ≤ c.values.length ∧ c.values.length ≤ 100
  values : ∀ s ∈ c.values, IsFilled s
  transforms : ∃ ts, c.transforms = some ts ∧ ts.length ≤ 5
  /-- The negation says the same as the modifier. -/
  negation : ∃ m, c.modifier = some m ∧ c.negate = some m.isNegated
  selector : ∀ s, c.selector = some s → s = c.matchVariable.spelling

structure Rule.Sound (r : Rule) : Prop where
  name : ∃ s, r.name = some s ∧ IsFilled s
  enabled : ∃ e, r.enabledState = some e
  priority : 0 ≤ r.priority.toInt
  minutes : ∃ n, r.rateLimitMinutes = some n ∧ 0 ≤ n.toInt ∧ n.toInt ≤ 5
  threshold : ∃ n, r.rateLimitThreshold = some n ∧ 0 ≤ n.toInt
  blockBody : ∀ s, r.blockBody = some s → IsBody s
  conditionCount : r.conditions.length ≤ 100
  conditions : ∀ c ∈ r.conditions, c.Sound

structure RuleOverride.Sound (r : RuleOverride) : Prop where
  ruleId : IsFilled r.ruleId
  enabled : ∃ e, r.enabledState = some e
  action : ∃ a, r.action = some a

structure GroupOverride.Sound (g : GroupOverride) : Prop where
  group : IsFilled g.group
  rules : ∃ rs, g.rules = some rs ∧ rs.length ≤ 1000 ∧ ∀ r ∈ rs, r.Sound

structure RuleSet.Sound (s : RuleSet) : Prop where
  type : IsFilled s.type
  version : IsFilled s.version
  overrides : ∀ gs, s.overrides = some gs → (1 ≤ gs.length ∧ gs.length ≤ 100) ∧ ∀ g ∈ gs, g.Sound

structure Settings.Sound (s : Settings) : Prop where
  enabled : ∃ e, s.enabledState = some e
  mode : ∃ m, s.mode = some m
  redirectUrl : ∀ url, s.redirectUrl = some url → IsFilled url
  blockStatusCode : ∀ n, s.blockStatusCode = some n → n.toInt ∈ [200, 403, 405, 406, 429]
  blockBody : ∀ body, s.blockBody = some body → IsBody body

structure Properties.Sound (p : Properties) : Prop where
  settings : ∃ s, p.settings = some s ∧ s.Sound
  rules : ∀ list, p.customRules = some list → ∃ rs, list.rules = some rs ∧
    (1 ≤ rs.length ∧ rs.length ≤ 100) ∧ (rs.map (·.name)).Nodup ∧ ∀ r ∈ rs, r.Sound
  ruleSets : ∀ list, p.managedRules = some list → ∃ ss, list.ruleSets = some ss ∧
    (1 ≤ ss.length ∧ ss.length ≤ 100) ∧ ∀ s ∈ ss, s.Sound
  endpointLinks : ∃ links, p.endpointLinks = some links ∧ links.length ≤ 1000 ∧
    ∀ link ∈ links, ∃ id, link.id = some id ∧ IsFilled id

end Document

/-- Everything that is checked of a policy holds of a document. -/
structure Document.Sound (d : Document) : Prop where
  location : d.location = some "Global"
  properties : ∃ p, d.properties = some p ∧ p.Sound

/-! ### What readings ensure -/

variable {α β : Type}

/-- Whatever a reading gives has a property. -/
def Reading.Ensures (read : Reading α) (P : α → Prop) : Prop :=
  ∀ ⦃path v x⦄, read path v = .ok x → P x

/-- Whatever is read from a block has a property. -/
def Block.Ensures (get : Block → Checked α) (P : α → Prop) : Prop :=
  ∀ ⦃b x⦄, get b = .ok x → P x

theorem Checked.forall_of_collect {f : α → Checked β} [∀ a, (f a).IsExplained] {P : β → Prop}
    (h : ∀ a b, f a = ok b → P b) {as : List α} {bs : List β} (hbs : collect f as = ok bs) :
    ∀ b ∈ bs, P b := by
  induction as generalizing bs with
  | nil =>
      rw [collect_nil_eq_ok_iff.mp hbs]
      simp
  | cons a rest ih =>
      obtain ⟨b, bs', hb, hrest, rfl⟩ := collect_cons_eq_ok_iff.mp hbs
      intro c hc
      rcases List.mem_cons.mp hc with rfl | hc
      · exact h a c hb
      · exact ih hrest c hc

namespace Reading

open Document

theorem text_ensures : text.Ensures IsFilled := fun _ _ _ h => (text_eq_ok_iff.mp h).2

theorem number_ensures (least most : Int) :
    (number least most).Ensures fun n => least ≤ n.toInt ∧ n.toInt ≤ most :=
  fun _ _ _ h => (number_eq_ok_iff.mp h).2

theorem base64_ensures : base64.Ensures IsBody := by
  intro path v x h
  obtain ⟨hread, htest⟩ := suchThat_eq_ok_iff.mp h
  refine ⟨?_, htest⟩
  rintro rfl
  have hfilled : IsFilled "" := text_ensures hread
  simp [IsFilled, Text.isBlankText] at hfilled

theorem statusCode_ensures :
    Policy.statusCode.Ensures fun n => n.toInt ∈ [200, 403, 405, 406, 429] := by
  intro path v x h
  have htest := (suchThat_eq_ok_iff.mp h).2
  simpa [Policy.blockStatusCodes] using htest

theorem Ensures.listOf {read : Reading α} [∀ path v, (read path v).IsExplained] {P : α → Prop}
    (h : read.Ensures P) (least most : Nat) : (Reading.listOf least most read).Ensures fun xs =>
      (least ≤ xs.length ∧ xs.length ≤ most) ∧ ∀ x ∈ xs, P x := by
  intro path v xs hxs
  obtain ⟨items, -, hbounds, hitems⟩ := listOf_eq_ok_iff.mp hxs
  have hlength : xs.length = items.length := by
    simpa using Checked.length_of_collect hitems
  refine ⟨?_, Checked.forall_of_collect (fun _ _ hx => h hx) hitems⟩
  rw [hlength]
  exact hbounds

end Reading

namespace Block

variable {key : String} {read : Reading α} {P : α → Prop}

theorem required_ensures (h : read.Ensures P) : Ensures (·.required key read) P := by
  intro b x hx
  simp only [required] at hx
  split at hx
  · exact h hx
  · simp at hx

theorem optional_ensures [∀ path v, (read path v).IsExplained] (h : read.Ensures P) :
    Ensures (·.optional key read) fun x => ∀ y, x = some y → P y := by
  intro b x hx
  simp only [optional] at hx
  split at hx
  · obtain ⟨y, hy, rfl⟩ := Checked.attempt_eq_ok_iff.mp hx
    intro z hz
    rw [← Option.some.inj hz]
    exact h hy
  · rw [← Checked.ok_inj.mp hx]
    simp

/-- A default must have the property, too. -/
theorem withDefault_ensures (h : read.Ensures P) {default : α} (hd : P default) :
    Ensures (·.withDefault key default read) P := by
  intro b x hx
  simp only [withDefault] at hx
  split at hx
  · exact h hx
  · rw [← Checked.ok_inj.mp hx]
    exact hd

theorem list_ensures [∀ path v, (read path v).IsExplained] (h : read.Ensures P)
    (least most : Nat) :
    Ensures (·.list key least most read) fun xs =>
      (least ≤ xs.length ∧ xs.length ≤ most) ∧ ∀ x ∈ xs, P x :=
  fun _ _ hx => h.listOf least most hx

theorem blocks_ensures {read : Block → Checked α} [∀ b, (read b).IsExplained]
    (h : Ensures read P) (most : Nat) :
    Ensures (·.blocks key most read) fun xs => xs.length ≤ most ∧ ∀ x ∈ xs, P x := by
  intro b xs hxs
  obtain ⟨maps, -, hmost, hmaps⟩ := listOf_eq_ok_iff.mp hxs
  have hlength : xs.length = maps.length := by
    simpa using Checked.length_of_collect hmaps
  refine ⟨?_, Checked.forall_of_collect (fun _ _ hx => h hx) hmaps⟩
  rw [hlength]
  exact hmost

end Block

/-! ### Documents of policies that were read -/

namespace Policy

open Reading Block Document

/-- A list that is left out when it is empty has items where it is there. -/
theorem nonEmpty?_eq_some_iff {as bs : List α} : nonEmpty? as = some bs ↔ as = bs ∧ as ≠ [] := by
  cases as <;> simp [nonEmpty?]

theorem length_pos_of_nonEmpty? {as bs : List α} (h : nonEmpty? as = some bs) : 1 ≤ bs.length := by
  obtain ⟨rfl, hne⟩ := nonEmpty?_eq_some_iff.mp h
  exact List.length_pos_iff.mpr hne

theorem Condition.ofBlock_sound :
    Block.Ensures Condition.ofBlock fun c => c.toDocument.Sound := by
  intro b c h
  obtain ⟨-, -, -, -, hvalues, htransforms⟩ := ofBlock_eq_ok_iff.mp h
  obtain ⟨hcount, hfilled⟩ := list_ensures text_ensures 1 maxValues hvalues
  have hword : (word (α := Transform)).Ensures fun _ => True := fun _ _ _ _ => trivial
  have htcount := (list_ensures hword 0 maxTransforms htransforms).1.2
  refine ⟨hcount, hfilled, ⟨c.transforms, rfl, htcount⟩, ⟨c.modifier, rfl, rfl⟩, fun s hs => ?_⟩
  cases ht : c.target with
  | whole v => simp [toDocument, ht] at hs
  | keyed selector =>
      simp only [toDocument, ht, Option.some.injEq, Target.matchVariable] at hs ⊢
      rw [← hs]
      exact selector.spelling_matchVariable.symm

theorem Rule.ofBlock_sound : Block.Ensures Rule.ofBlock fun r => r.toDocument.Sound := by
  intro b r h
  obtain ⟨-, hname, hpriority, -, -, hminutes, hthreshold, -, hbody, hconditions⟩ :=
    ofBlock_eq_ok_iff.mp h
  have hnumber : (number 0 maxNumber).Ensures _ := number_ensures _ _
  have hfew : (number 0 maxRateLimitMinutes).Ensures _ := number_ensures _ _
  obtain ⟨hcount, hsound⟩ := blocks_ensures Condition.ofBlock_sound maxConditions hconditions
  constructor
  · exact ⟨r.name, rfl, required_ensures text_ensures hname⟩
  · exact ⟨_, rfl⟩
  · exact (withDefault_ensures hnumber (by decide) hpriority).1
  · exact ⟨_, rfl, withDefault_ensures hfew (by decide) hminutes⟩
  · exact ⟨_, rfl, (withDefault_ensures hnumber (by decide) hthreshold).1⟩
  · exact optional_ensures base64_ensures hbody
  · rw [toDocument, List.length_map]
    exact hcount
  · simpa [toDocument] using hsound

theorem RuleOverride.ofBlock_sound :
    Block.Ensures RuleOverride.ofBlock fun r => r.toDocument.Sound := by
  intro b r h
  obtain ⟨-, hid, -, -⟩ := ofBlock_eq_ok_iff.mp h
  exact ⟨required_ensures text_ensures hid, ⟨_, rfl⟩, ⟨_, rfl⟩⟩

theorem GroupOverride.ofBlock_sound :
    Block.Ensures GroupOverride.ofBlock fun g => g.toDocument.Sound := by
  intro b g h
  obtain ⟨-, hgroup, hrules⟩ := ofBlock_eq_ok_iff.mp h
  obtain ⟨hcount, hsound⟩ := blocks_ensures RuleOverride.ofBlock_sound maxRuleOverrides hrules
  refine ⟨required_ensures text_ensures hgroup, _, rfl, ?_, ?_⟩
  · rw [List.length_map]
    exact hcount
  · simpa using hsound

theorem RuleSet.ofBlock_sound : Block.Ensures RuleSet.ofBlock fun s => s.toDocument.Sound := by
  intro b s h
  obtain ⟨-, htype, hversion, hoverrides⟩ := ofBlock_eq_ok_iff.mp h
  obtain ⟨hcount, hsound⟩ := blocks_ensures GroupOverride.ofBlock_sound maxGroupOverrides hoverrides
  refine ⟨required_ensures text_ensures htype, required_ensures text_ensures hversion,
    fun gs hgs => ?_⟩
  have hpos := length_pos_of_nonEmpty? hgs
  obtain ⟨rfl, -⟩ := nonEmpty?_eq_some_iff.mp hgs
  refine ⟨⟨hpos, ?_⟩, by simpa using hsound⟩
  rw [List.length_map]
  exact hcount

theorem settings_sound {b : Block} {p : Policy} (h : ofBlock b = .ok p) : p.settings.Sound := by
  obtain ⟨-, -, -, -, hredirect, hcode, hbody, -⟩ := ofBlock_eq_ok_iff.mp h
  exact ⟨⟨_, rfl⟩, ⟨_, rfl⟩, optional_ensures text_ensures hredirect,
    optional_ensures statusCode_ensures hcode, optional_ensures base64_ensures hbody⟩

/-- Whatever attributes declare a policy, its document is sound. -/
theorem sound_toDocument {a : Attributes} {p : Policy} (h : ofAttributes a = .ok p) :
    p.toDocument.Sound := by
  have hread := ofAttributes_eq_ok_iff.mp h
  have hsettings := settings_sound hread
  obtain ⟨-, -, -, -, -, -, -, hrules, hsets, hendpoints, -⟩ := ofBlock_eq_ok_iff.mp hread
  obtain ⟨hblocks, hnames⟩ := rulesOf_eq_ok_iff.mp hrules
  obtain ⟨hruleCount, hruleSound⟩ := blocks_ensures Rule.ofBlock_sound maxRules hblocks
  obtain ⟨hsetCount, hsetSound⟩ := blocks_ensures RuleSet.ofBlock_sound maxRuleSets hsets
  obtain ⟨hlinkCount, hlinkFilled⟩ := list_ensures text_ensures 0 maxEndpoints hendpoints
  refine ⟨rfl, _, rfl, ⟨_, rfl, hsettings⟩, fun list hlist => ?_, fun list hlist => ?_, ?_⟩
  · obtain ⟨rs, hrs, rfl⟩ := Option.map_eq_some_iff.mp hlist
    have hpos := length_pos_of_nonEmpty? hrs
    obtain ⟨rfl, -⟩ := nonEmpty?_eq_some_iff.mp hrs
    refine ⟨_, rfl, ⟨hpos, ?_⟩, ?_, by simpa using hruleSound⟩
    · rw [List.length_map]
      exact hruleCount
    · have hname : (p.rules.map Rule.toDocument).map (·.name) =
          (p.rules.map (·.name)).map some := by
        rw [List.map_map, List.map_map]
        rfl
      rw [hname]
      exact List.Pairwise.map some (fun _ _ hne heq => hne (Option.some.inj heq)) hnames
  · obtain ⟨ss, hss, rfl⟩ := Option.map_eq_some_iff.mp hlist
    have hpos := length_pos_of_nonEmpty? hss
    obtain ⟨rfl, -⟩ := nonEmpty?_eq_some_iff.mp hss
    refine ⟨_, rfl, ⟨hpos, ?_⟩, by simpa using hsetSound⟩
    rw [List.length_map]
    exact hsetCount
  · refine ⟨_, rfl, ?_, fun link hlink => ?_⟩
    · rw [List.length_map]
      exact hlinkCount.2
    · obtain ⟨id, hid, rfl⟩ := List.mem_map.mp hlink
      exact ⟨id, rfl, hlinkFilled id hid⟩

end Policy

end EdgeFirewall
