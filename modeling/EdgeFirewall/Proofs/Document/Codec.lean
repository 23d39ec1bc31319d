import EdgeFirewall.Proofs.Json.Codec

/-! # The format of policy documents

The members that a document declares, record by record (`Document.format`), and that reading and
writing documents belong to that format (`Document.codec`). So a document survives being written,
with nothing in it null (`Document.read_written`). -/

namespace EdgeFirewall.Document

open Json Format

attribute [local simp] List.lookup_append List.lookup_cons lookup_member? ofTexts

/-! ### Settings -/

def Settings.format : Format := .record [
  ⟨"enabledState", .optional, ofVocabulary EnabledState⟩,
  ⟨"mode", .optional, ofVocabulary PolicyMode⟩,
  ⟨"redirectUrl", .optional, .text⟩,
  ⟨"customBlockResponseStatusCode", .optional, .number⟩,
  ⟨"customBlockResponseBody", .optional, .text⟩]

theorem Settings.codec : Settings.format.Codec ofJson? toJson where
  read_write s := by
    refine read_record (keys_append (keys_append (keys_append (keys_append keys_member?
      keys_member?) keys_member?) keys_member?) keys_member?) ?_ (by decide)
    refine (codec_ofVocabulary _).reads_optional s.enabledState (by simp) ?_
    refine (codec_ofVocabulary _).reads_optional s.mode (by simp) ?_
    refine codec_text.reads_optional s.redirectUrl (by simp) ?_
    refine codec_number.reads_optional s.blockStatusCode (by simp) ?_
    exact codec_text.reads_optional s.blockBody (by simp) rfl
  map_write := by
    refine map_write_record (fun r => ?_) (by rfl)
    refine (codec_ofVocabulary _).rewrites_optional fun enabledState => ?_
    refine (codec_ofVocabulary _).rewrites_optional fun mode => ?_
    refine codec_text.rewrites_optional fun redirectUrl => ?_
    refine codec_number.rewrites_optional fun blockStatusCode => ?_
    exact codec_text.rewrites_optional fun blockBody => rewrites_nil rfl

/-! ### Custom rules -/

def Condition.format : Format := .record [
  ⟨"matchVariable", .required, ofVocabulary MatchVariable⟩,
  ⟨"selector", .optional, .text⟩,
  ⟨"operator", .required, ofVocabulary Operator⟩,
  ⟨"negateCondition", .optional, .truth⟩,
  ⟨"conditionModifier", .optional, ofVocabulary ConditionModifier⟩,
  ⟨"matchValue", .listOrEmpty, .list .text⟩,
  ⟨"transforms", .optional, .list (ofVocabulary Transform)⟩]

theorem Condition.codec : Condition.format.Codec ofJson? toJson where
  read_write c := by
    refine read_record (keys_append (keys_append (keys_append (keys_append (keys_append
      (keys_append (.refl _) keys_member?) (.refl _)) keys_member?) keys_member?) (.refl _))
      keys_member?) ?_ (by decide)
    refine (codec_ofVocabulary _).reads_required c.matchVariable (by simp) ?_
    refine codec_text.reads_optional c.selector (by simp) ?_
    refine (codec_ofVocabulary _).reads_required c.operator (by simp) ?_
    refine codec_truth.reads_optional c.negate (by simp) ?_
    refine (codec_ofVocabulary _).reads_optional c.modifier (by simp) ?_
    refine codec_text.reads_listOrEmpty c.values (by simp) ?_
    exact (codec_list (codec_ofVocabulary _)).reads_optional c.transforms (by simp) rfl
  map_write := by
    refine map_write_record (fun r => ?_) (by rfl)
    refine (codec_ofVocabulary _).rewrites_required fun matchVariable => ?_
    refine codec_text.rewrites_optional fun selector => ?_
    refine (codec_ofVocabulary _).rewrites_required fun operator => ?_
    refine codec_truth.rewrites_optional fun negate => ?_
    refine (codec_ofVocabulary _).rewrites_optional fun modifier => ?_
    refine codec_text.rewrites_listOrEmpty fun values => ?_
    exact (codec_list (codec_ofVocabulary _)).rewrites_optional fun transforms => rewrites_nil rfl

def Rule.format : Format := .record [
  ⟨"name", .optional, .text⟩,
  ⟨"priority", .required, .number⟩,
  ⟨"enabledState", .optional, ofVocabulary EnabledState⟩,
  ⟨"ruleType", .required, ofVocabulary RuleType⟩,
  ⟨"rateLimitDurationInMinutes", .optional, .number⟩,
  ⟨"rateLimitThreshold", .optional, .number⟩,
  ⟨"matchConditions", .listOrEmpty, .list Condition.format⟩,
  ⟨"action", .required, ofVocabulary ActionType⟩,
  ⟨"customBlockResponseBody", .optional, .text⟩]

theorem Rule.codec : Rule.format.Codec ofJson? toJson where
  read_write r := by
    refine read_record (keys_append (keys_append (keys_append (keys_append (keys_append
      (keys_append (keys_append keys_member? (.refl _)) keys_member?) (.refl _)) keys_member?)
      keys_member?) (.refl _)) keys_member?) ?_ (by decide)
    refine codec_text.reads_optional r.name (by simp) ?_
    refine codec_number.reads_required r.priority (by simp) ?_
    refine (codec_ofVocabulary _).reads_optional r.enabledState (by simp) ?_
    refine (codec_ofVocabulary _).reads_required r.ruleType (by simp) ?_
    refine codec_number.reads_optional r.rateLimitMinutes (by simp) ?_
    refine codec_number.reads_optional r.rateLimitThreshold (by simp) ?_
    refine Condition.codec.reads_listOrEmpty r.conditions (by simp) ?_
    refine (codec_ofVocabulary _).reads_required r.action (by simp) ?_
    exact codec_text.reads_optional r.blockBody (by simp) rfl
  map_write := by
    refine map_write_record (fun r => ?_) (by rfl)
    refine codec_text.rewrites_optional fun name => ?_
    refine codec_number.rewrites_required fun priority => ?_
    refine (codec_ofVocabulary _).rewrites_optional fun enabledState => ?_
    refine (codec_ofVocabulary _).rewrites_required fun ruleType => ?_
    refine codec_number.rewrites_optional fun rateLimitMinutes => ?_
    refine codec_number.rewrites_optional fun rateLimitThreshold => ?_
    refine Condition.codec.rewrites_listOrEmpty fun conditions => ?_
    refine (codec_ofVocabulary _).rewrites_required fun action => ?_
    exact codec_text.rewrites_optional fun blockBody => rewrites_nil (by simp [toJson])

def RuleList.format : Format := .record [⟨"rules", .optional, .list Rule.format⟩]

theorem RuleList.codec : RuleList.format.Codec ofJson? toJson where
  read_write l := by
    refine read_record keys_member? ?_ (by decide)
    exact (codec_list Rule.codec).reads_optional l.rules (by simp) rfl
  map_write := by
    refine map_write_record (fun r => ?_) (by rfl)
    exact (codec_list Rule.codec).rewrites_optional fun rules => rewrites_nil rfl

/-! ### Managed rules -/

def RuleOverride.format : Format := .record [
  ⟨"ruleId", .required, .text⟩,
  ⟨"enabledState", .optional, ofVocabulary EnabledState⟩,
  ⟨"action", .optional, ofVocabulary ActionType⟩]

theorem RuleOverride.codec : RuleOverride.format.Codec ofJson? toJson where
  read_write r := by
    refine read_record (keys_append (keys_append (.refl _) keys_member?) keys_member?) ?_
      (by decide)
    refine codec_text.reads_required r.ruleId (by simp) ?_
    refine (codec_ofVocabulary _).reads_optional r.enabledState (by simp) ?_
    exact (codec_ofVocabulary _).reads_optional r.action (by simp) rfl
  map_write := by
    refine map_write_record (fun r => ?_) (by rfl)
    refine codec_text.rewrites_required fun ruleId => ?_
    refine (codec_ofVocabulary _).rewrites_optional fun enabledState => ?_
    exact (codec_ofVocabulary _).rewrites_optional fun action => rewrites_nil rfl

def GroupOverride.format : Format := .record [
  ⟨"ruleGroupName", .required, .text⟩,
  ⟨"rules", .optional, .list RuleOverride.format⟩]

theorem GroupOverride.codec : GroupOverride.format.Codec ofJson? toJson where
  read_write g := by
    refine read_record (keys_append (.refl _) keys_member?) ?_ (by decide)
    refine codec_text.reads_required g.group (by simp) ?_
    exact (codec_list RuleOverride.codec).reads_optional g.rules (by simp) rfl
  map_write := by
    refine map_write_record (fun r => ?_) (by rfl)
    refine codec_text.rewrites_required fun group => ?_
    exact (codec_list RuleOverride.codec).rewrites_optional fun rules => rewrites_nil rfl

def RuleSet.format : Format := .record [
  ⟨"ruleSetType", .required, .text⟩,
  ⟨"ruleSetVersion", .required, .text⟩,
  ⟨"ruleGroupOverrides", .optional, .list GroupOverride.format⟩]

theorem RuleSet.codec : RuleSet.format.Codec ofJson? toJson where
  read_write s := by
    refine read_record (keys_append (.refl _) keys_member?) ?_ (by decide)
    refine codec_text.reads_required s.type (by simp) ?_
    refine codec_text.reads_required s.version (by simp) ?_
    exact (codec_list GroupOverride.codec).reads_optional s.overrides (by simp) rfl
  map_write := by
    refine map_write_record (fun r => ?_) (by rfl)
    refine codec_text.rewrites_required fun type => ?_
    refine codec_text.rewrites_required fun version => ?_
    exact (codec_list GroupOverride.codec).rewrites_optional fun overrides => rewrites_nil rfl

def RuleSetList.format : Format := .record [⟨"managedRuleSets", .optional, .list RuleSet.format⟩]

theorem RuleSetList.codec : RuleSetList.format.Codec ofJson? toJson where
  read_write l := by
    refine read_record keys_member? ?_ (by decide)
    exact (codec_list RuleSet.codec).reads_optional l.ruleSets (by simp) rfl
  map_write := by
    refine map_write_record (fun r => ?_) (by rfl)
    exact (codec_list RuleSet.codec).rewrites_optional fun ruleSets => rewrites_nil rfl

/-! ### Documents -/

def EndpointLink.format : Format := .record [⟨"id", .optional, .text⟩]

theorem EndpointLink.codec : EndpointLink.format.Codec ofJson? toJson where
  read_write l := by
    refine read_record keys_member? ?_ (by decide)
    exact codec_text.reads_optional l.id (by simp) rfl
  map_write := by
    refine map_write_record (fun r => ?_) (by rfl)
    exact codec_text.rewrites_optional fun id => rewrites_nil rfl

def Properties.format : Format := .record [
  ⟨"policySettings", .optional, Settings.format⟩,
  ⟨"customRules", .optional, RuleList.format⟩,
  ⟨"managedRules", .optional, RuleSetList.format⟩,
  ⟨"frontendEndpointLinks", .optional, .list EndpointLink.format⟩,
  ⟨"provisioningState", .optional, .text⟩,
  ⟨"resourceState", .optional, .text⟩]

theorem Properties.codec : Properties.format.Codec ofJson? toJson where
  read_write p := by
    refine read_record (keys_append (keys_append (keys_append (keys_append (keys_append
      keys_member? keys_member?) keys_member?) keys_member?) keys_member?) keys_member?) ?_
      (by decide)
    refine Settings.codec.reads_optional p.settings (by simp) ?_
    refine RuleList.codec.reads_optional p.customRules (by simp) ?_
    refine RuleSetList.codec.reads_optional p.managedRules (by simp) ?_
    refine (codec_list EndpointLink.codec).reads_optional p.endpointLinks (by simp) ?_
    refine codec_text.reads_optional p.provisioningState (by simp) ?_
    exact codec_text.reads_optional p.resourceState (by simp) rfl
  map_write := by
    refine map_write_record (fun r => ?_) (by rfl)
    refine Settings.codec.rewrites_optional fun settings => ?_
    refine RuleList.codec.rewrites_optional fun customRules => ?_
    refine RuleSetList.codec.rewrites_optional fun managedRules => ?_
    refine (codec_list EndpointLink.codec).rewrites_optional fun endpointLinks => ?_
    refine codec_text.rewrites_optional fun provisioningState => ?_
    exact codec_text.rewrites_optional fun resourceState => rewrites_nil rfl

/-- The format of documents. -/
def format : Format := .record [
  ⟨"id", .optional, .text⟩,
  ⟨"name", .optional, .text⟩,
  ⟨"type", .optional, .text⟩,
  ⟨"location", .optional, .text⟩,
  ⟨"tags", .optional, .table⟩,
  ⟨"etag", .optional, .text⟩,
  ⟨"properties", .optional, Properties.format⟩]

theorem codec : format.Codec ofJson? toJson where
  read_write d := by
    refine read_record (keys_append (keys_append (keys_append (keys_append (keys_append
      (keys_append keys_member? keys_member?) keys_member?) keys_member?) keys_member?)
      keys_member?) keys_member?) ?_ (by decide)
    refine codec_text.reads_optional d.id (by simp) ?_
    refine codec_text.reads_optional d.name (by simp) ?_
    refine codec_text.reads_optional d.type (by simp) ?_
    refine codec_text.reads_optional d.location (by simp) ?_
    refine codec_table.reads_optional d.tags (by simp) ?_
    refine codec_text.reads_optional d.etag (by simp) ?_
    exact Properties.codec.reads_optional d.properties (by simp) rfl
  map_write := by
    refine map_write_record (fun r => ?_) (by rfl)
    refine codec_text.rewrites_optional fun id => ?_
    refine codec_text.rewrites_optional fun name => ?_
    refine codec_text.rewrites_optional fun type => ?_
    refine codec_text.rewrites_optional fun location => ?_
    refine codec_table.rewrites_optional fun tags => ?_
    refine codec_text.rewrites_optional fun etag => ?_
    exact Properties.codec.rewrites_optional fun properties => rewrites_nil rfl

/-! ### Declarations -/

/-- The lists that a document may lack, wherever they stand. -/
def lists : List String := ["matchConditions", "matchValue"]

/-- The members of a record have different names, and the lists that it may lack are among
`lists`. -/
def Declared (members : List (Member Format)) : Prop :=
  (members.map Member.name).Nodup ∧ ListsAmong lists members

instance : DecidablePred Declared := fun members =>
  inferInstanceAs (Decidable ((members.map Member.name).Nodup ∧ ListsAmong lists members))

theorem every_format : format.Every Declared := by decide +kernel

theorem distinct_format : format.Distinct := every_format.mono fun _ h => h.1

theorem every_listsAmong : format.Every (ListsAmong lists) := every_format.mono fun _ h => h.2

/-! ### Written documents -/

/-- Reading a document that was written gives the document back, and no member of what was written
is null. -/
theorem read_written (d : Document) : ofJson? d.toJson = some d ∧ ¬ d.toJson.HasNullMember := by
  have hread : ofJson? d.toJson = some d := codec.read_write d
  have hcanon : format.canon? d.toJson = some d.toJson := by
    rw [← codec.map_write, hread, Option.map_some]
  exact ⟨hread, canon?_not_hasNullMember distinct_format hcanon⟩

end EdgeFirewall.Document
