import LlmGateway.Effects.Checked
import LlmGateway.Quota.Tracker
import LlmGateway.Text.Words

/-!
# The keys of the quota counters

The builders of the keys below `q:{scope}:{provider}:{model}`, with what they
refuse, and whether two of them can build the same key. Model ids may hold the
character the segments are joined by.
-/

namespace LlmGateway

namespace Keys

/-! ## Segments -/

/-- What `_segment` raises. -/
inductive ValueError where
  | empty (name : String)
  | whitespace (name text : String)
  deriving DecidableEq, Repr

/-- `_segment`. -/
def segment (value name : String) : Except ValueError String :=
  if value.toList = [] then .error (.empty name)
  else if value.toList.any Text.isSpace then .error (.whitespace name value)
  else .ok value

/-- `_model_scoped`. -/
def modelScoped (scope provider model : String) : Except ValueError String := do
  let scope ← segment scope "scope"
  let provider ← segment provider "provider"
  let model ← segment model "model"
  return Quota.modelScoped scope provider model

/-! ## Builders -/

/-- `quota`: one usage counter. -/
def quota (scope provider model : String) (window : QuotaWindow) : Except ValueError String := do
  return (← modelScoped scope provider model) ++ ":" ++ window.name

/-- `quota_reservation`: one in-flight reservation. -/
def quotaReservation (scope provider model requestId : String) : Except ValueError String := do
  let prefixed ← modelScoped scope provider model
  return prefixed ++ ":res:" ++ (← segment requestId "request_id")

/-- `quota_perception_lane`: the perception half of a day. -/
def quotaPerceptionLane (scope provider model : String) : Except ValueError String := do
  return (← modelScoped scope provider model) ++ ":lane:perception"

/-- `user_allocation`: a personal daily cap. -/
def userAllocation (userId provider model : String) : Except ValueError String := do
  return (← modelScoped userId provider model) ++ ":alloc:rpd"

/-- A call of one of the builders. -/
inductive Call where
  | quota (scope provider model : String) (window : QuotaWindow)
  | quotaReservation (scope provider model requestId : String)
  | quotaPerceptionLane (scope provider model : String)
  | userAllocation (userId provider model : String)
  deriving DecidableEq, Repr

namespace Call

def key : Call → Except ValueError String
  | .quota scope provider model window => Keys.quota scope provider model window
  | .quotaReservation scope provider model requestId =>
    Keys.quotaReservation scope provider model requestId
  | .quotaPerceptionLane scope provider model => Keys.quotaPerceptionLane scope provider model
  | .userAllocation userId provider model => Keys.userAllocation userId provider model

/-! ## Reading a key back -/

/-- Whose counter it is. -/
def scope : Call → String
  | .quota scope _ _ _ | .quotaReservation scope _ _ _ | .quotaPerceptionLane scope _ _ => scope
  | .userAllocation userId _ _ => userId

def provider : Call → String
  | .quota _ provider _ _ | .quotaReservation _ provider _ _ | .quotaPerceptionLane _ provider _
  | .userAllocation _ provider _ => provider

def model : Call → String
  | .quota _ _ model _ | .quotaReservation _ _ model _ | .quotaPerceptionLane _ _ model
  | .userAllocation _ _ model => model

/-- What stands between the model and the last segment. -/
def label : Call → String
  | .quota _ _ _ _ => ""
  | .quotaReservation _ _ _ _ => ":res"
  | .quotaPerceptionLane _ _ _ => ":lane"
  | .userAllocation _ _ _ => ":alloc"

/-- The last segment. -/
def last : Call → String
  | .quota _ _ _ window => window.name
  | .quotaReservation _ _ _ requestId => requestId
  | .quotaPerceptionLane _ _ _ => "perception"
  | .userAllocation _ _ _ => "rpd"

/-- Scopes, providers and request ids without the separator. -/
structure Plain (c : Call) : Prop where
  scope : ':' ∉ c.scope.toList
  provider : ':' ∉ c.provider.toList
  requestId : ∀ scope provider model requestId,
    c = .quotaReservation scope provider model requestId → ':' ∉ requestId.toList

theorem Plain.last {c : Call} (h : c.Plain) : ':' ∉ c.last.toList := by
  cases c with
  | quota scope provider model window =>
    have hnames : ∀ w : QuotaWindow, ':' ∉ w.name.toList := by
      intro w
      cases w <;> decide
    exact hnames window
  | quotaReservation scope provider model requestId => exact h.requestId _ _ _ _ rfl
  | quotaPerceptionLane scope provider model => exact (by decide : ':' ∉ "perception".toList)
  | userAllocation userId provider model => exact (by decide : ':' ∉ "rpd".toList)

end Call

open Effects

theorem segment_eq_ok_iff {value name text : String} :
    segment value name = .ok text ↔
      text = value ∧ value.toList ≠ [] ∧ ∀ c ∈ value.toList, Text.isSpace c = false := by
  rw [segment]
  by_cases hempty : value.toList = []
  · simp [hempty]
  · by_cases hspace : value.toList.any Text.isSpace
    · obtain ⟨c, hc, hcs⟩ := List.any_eq_true.mp hspace
      simp only [hempty, hspace, if_true, if_false, reduceCtorEq, false_iff]
      rintro ⟨-, -, hall⟩
      rw [hall c hc] at hcs
      cases hcs
    · have hall : ∀ c ∈ value.toList, Text.isSpace c = false := by
        intro c hc
        by_contra hcs
        exact hspace (List.any_eq_true.mpr ⟨c, hc, by simpa using hcs⟩)
      rw [if_neg hempty, if_neg hspace]
      exact ⟨fun h => ⟨(Except.ok.inj h).symm, hempty, hall⟩, fun h => congrArg _ h.1.symm⟩

theorem modelScoped_eq_ok {scope provider model key : String}
    (h : modelScoped scope provider model = .ok key) :
    key = Quota.modelScoped scope provider model := by
  obtain ⟨scope', hscope, h⟩ := bind_eq_ok_iff.mp h
  obtain ⟨provider', hprovider, h⟩ := bind_eq_ok_iff.mp h
  obtain ⟨model', hmodel, h⟩ := bind_eq_ok_iff.mp h
  rw [(segment_eq_ok_iff.mp hscope).1, (segment_eq_ok_iff.mp hprovider).1,
    (segment_eq_ok_iff.mp hmodel).1] at h
  exact (Except.ok.inj h).symm

namespace Call

/-- A key, segment by segment. -/
theorem key_eq {c : Call} {key : String} (h : c.key = .ok key) :
    key.toList = 'q' :: ':' :: (c.scope.toList ++ ':' :: (c.provider.toList ++ ':' ::
      ((c.model ++ c.label).toList ++ ':' :: c.last.toList))) := by
  cases c with
  | quota scope provider model window =>
    obtain ⟨prefixed, hprefixed, h⟩ := bind_eq_ok_iff.mp h
    rw [modelScoped_eq_ok hprefixed] at h
    obtain rfl := Except.ok.inj h
    simp [Quota.modelScoped, Call.scope, Call.provider, Call.model, label, last]
  | quotaReservation scope provider model requestId =>
    obtain ⟨prefixed, hprefixed, h⟩ := bind_eq_ok_iff.mp h
    obtain ⟨requestId', hrequest, h⟩ := bind_eq_ok_iff.mp h
    rw [modelScoped_eq_ok hprefixed, (segment_eq_ok_iff.mp hrequest).1] at h
    obtain rfl := Except.ok.inj h
    simp [Quota.modelScoped, Call.scope, Call.provider, Call.model, label, last]
  | quotaPerceptionLane scope provider model =>
    obtain ⟨prefixed, hprefixed, h⟩ := bind_eq_ok_iff.mp h
    rw [modelScoped_eq_ok hprefixed] at h
    obtain rfl := Except.ok.inj h
    simp [Quota.modelScoped, Call.scope, Call.provider, Call.model, label, last]
  | userAllocation userId provider model =>
    obtain ⟨prefixed, hprefixed, h⟩ := bind_eq_ok_iff.mp h
    rw [modelScoped_eq_ok hprefixed] at h
    obtain rfl := Except.ok.inj h
    simp [Quota.modelScoped, Call.scope, Call.provider, Call.model, label, last]

/-- Two calls with one key agree in every segment but for where the model ends. -/
theorem eq_of_key {c c' : Call} {key : String} (hc : c.Plain) (hc' : c'.Plain)
    (h : c.key = .ok key) (h' : c'.key = .ok key) :
    c.scope = c'.scope ∧ c.provider = c'.provider ∧ c.model ++ c.label = c'.model ++ c'.label ∧
      c.last = c'.last := by
  have heq := (key_eq h).symm.trans (key_eq h')
  simp only [List.cons.injEq, true_and] at heq
  -- Scope and provider end at the first separators. The model may hold more of them, so what
  -- stands behind it is read from the other end.
  obtain ⟨hscope, heq⟩ := Text.append_sep_inj hc.scope hc'.scope heq
  obtain ⟨hprovider, heq⟩ := Text.append_sep_inj hc.provider hc'.provider heq
  obtain ⟨hmodel, hlast⟩ := Text.sep_append_inj hc.last hc'.last heq
  exact ⟨String.toList_inj.mp hscope, String.toList_inj.mp hprovider, String.toList_inj.mp hmodel,
    String.toList_inj.mp hlast⟩

/-! ## Which keys coincide -/

/-- A model id that ends like another builder's label: its counter is the other builder's key. -/
inductive Collides : Call → Call → Prop
  | res {scope provider model : String} (window : QuotaWindow) :
      Collides (.quota scope provider (model ++ ":res") window)
        (.quotaReservation scope provider model window.name)
  | alloc {scope provider model : String} :
      Collides (.quota scope provider (model ++ ":alloc") .rpd)
        (.userAllocation scope provider model)

theorem Collides.ne {c c' : Call} (h : Collides c c') : c ≠ c' := by
  cases h <;> simp

theorem Collides.key_eq {c c' : Call} {key key' : String} (h : Collides c c') (hc : c.key = .ok key)
    (hc' : c'.key = .ok key') : key = key' := by
  apply String.toList_inj.mp
  rw [Call.key_eq hc, Call.key_eq hc']
  cases h <;> simp [Call.scope, Call.provider, Call.model, label, last, QuotaWindow.name]

/-- Where both builders put a label, the labels are the same and so are the models. -/
theorem label_congr {model model' label label' : String} {l l' : List Char}
    (hl : label.toList = ':' :: l) (hl' : label'.toList = ':' :: l') (hsep : ':' ∉ l)
    (hsep' : ':' ∉ l') (h : model ++ label = model' ++ label') : model = model' ∧ label = label' := by
  have hlist := congrArg String.toList h
  rw [String.toList_append, String.toList_append, hl, hl'] at hlist
  obtain ⟨hmodel, hlabel⟩ := Text.sep_append_inj hsep hsep' hlist
  refine ⟨String.toList_inj.mp hmodel, String.toList_inj.mp ?_⟩
  rw [hl, hl', hlabel]

theorem name_inj {w w' : QuotaWindow} (h : w.name = w'.name) : w = w' := by
  revert h
  cases w <;> cases w' <;> decide

/-- A call is its segments: the label says which builder it is. -/
theorem eq_of_parts {c c' : Call} (hscope : c.scope = c'.scope) (hprovider : c.provider = c'.provider)
    (hmodel : c.model = c'.model) (hlabel : c.label = c'.label) (hlast : c.last = c'.last) :
    c = c' := by
  cases c with
  | quota =>
    cases c' with
    | quota =>
      rw [Call.quota.injEq]
      exact ⟨hscope, hprovider, hmodel, name_inj hlast⟩
    | _ => simp [label] at hlabel
  | quotaReservation =>
    cases c' with
    | quotaReservation =>
      rw [Call.quotaReservation.injEq]
      exact ⟨hscope, hprovider, hmodel, hlast⟩
    | _ => simp [label] at hlabel
  | quotaPerceptionLane =>
    cases c' with
    | quotaPerceptionLane =>
      rw [Call.quotaPerceptionLane.injEq]
      exact ⟨hscope, hprovider, hmodel⟩
    | _ => simp [label] at hlabel
  | userAllocation =>
    cases c' with
    | userAllocation =>
      rw [Call.userAllocation.injEq]
      exact ⟨hscope, hprovider, hmodel⟩
    | _ => simp [label] at hlabel

/-- A builder that labels its keys: the label's letters. -/
theorem label_cases (c : Call) :
    (∃ scope provider model window, c = .quota scope provider model window) ∨
      ∃ l, c.label.toList = ':' :: l ∧ ':' ∉ l := by
  cases c with
  | quota scope provider model window => exact .inl ⟨scope, provider, model, window, rfl⟩
  | quotaReservation => exact .inr ⟨"res".toList, by simp [label], by decide⟩
  | quotaPerceptionLane => exact .inr ⟨"lane".toList, by simp [label], by decide⟩
  | userAllocation => exact .inr ⟨"alloc".toList, by simp [label], by decide⟩

/-- A counter that shares its key with a call of another builder. -/
theorem collides_of_quota {scope provider model : String} {window : QuotaWindow} {c : Call}
    (hscope : scope = c.scope) (hprovider : provider = c.provider)
    (hmodel : model = c.model ++ c.label) (hlast : window.name = c.last) :
    .quota scope provider model window = c ∨ Collides (.quota scope provider model window) c := by
  subst hscope hprovider hmodel
  cases c with
  | quota scope provider model window' =>
    left
    simp [Call.scope, Call.provider, Call.model, label, name_inj hlast]
  | quotaReservation scope provider model requestId =>
    have hrequest : requestId = window.name := hlast.symm
    subst hrequest
    exact .inr (.res window)
  | quotaPerceptionLane scope provider model =>
    have hne : ∀ w : QuotaWindow, w.name ≠ "perception" := by
      intro w
      cases w <;> decide
    exact absurd hlast (hne window)
  | userAllocation userId provider model =>
    have hwindow : window = .rpd := name_inj hlast
    subst hwindow
    exact .inr .alloc

/-- Two calls build different keys, unless they are the same call or a counter's model id ends in
the other builder's label. -/
theorem key_inj_iff {c c' : Call} {key key' : String} (hc : c.Plain) (hc' : c'.Plain)
    (h : c.key = .ok key) (h' : c'.key = .ok key') :
    (key = key' → c = c') ↔ ¬ (Collides c c' ∨ Collides c' c) := by
  constructor
  · intro hinj
    rintro (hcol | hcol)
    · exact hcol.ne (hinj (hcol.key_eq h h'))
    · exact hcol.ne (hinj (hcol.key_eq h' h).symm).symm
  · rintro hno rfl
    obtain ⟨hscope, hprovider, hmodel, hlast⟩ := eq_of_key hc hc' h h'
    rcases label_cases c with ⟨scope, provider, model, window, rfl⟩ | ⟨l, hl, hsep⟩
    · have hmodel' : model = c'.model ++ c'.label := by simpa [Call.model, label] using hmodel
      rcases collides_of_quota hscope hprovider hmodel' hlast with heq | hcol
      · exact heq
      · exact absurd (.inl hcol) hno
    · rcases label_cases c' with ⟨scope, provider, model, window, rfl⟩ | ⟨l', hl', hsep'⟩
      · have hmodel' : model = c.model ++ c.label := by
          simpa [Call.model, label] using hmodel.symm
        rcases collides_of_quota hscope.symm hprovider.symm hmodel' hlast.symm with heq | hcol
        · exact heq.symm
        · exact absurd (.inr hcol) hno
      · obtain ⟨hmodel, hlabel⟩ := label_congr hl hl' hsep hsep' hmodel
        exact eq_of_parts hscope hprovider hmodel hlabel hlast

/-- The daily counter of a model whose id ends in `:alloc` is the personal cap of another. -/
theorem not_key_inj :
    ¬ ∀ (c c' : Call) (key : String), c.Plain → c'.Plain → c.key = .ok key → c'.key = .ok key →
      c = c' := by
  intro h
  have hplain : ∀ c : Call, c = .quota "u1" "openrouter" "mini:alloc" .rpd ∨
      c = .userAllocation "u1" "openrouter" "mini" → c.Plain := by
    rintro c (rfl | rfl) <;> exact ⟨by decide, by decide, fun _ _ _ _ h => by cases h⟩
  have heq := h (.quota "u1" "openrouter" "mini:alloc" .rpd)
    (.userAllocation "u1" "openrouter" "mini") "q:u1:openrouter:mini:alloc:rpd"
    (hplain _ (.inl rfl)) (hplain _ (.inr rfl)) (by decide) (by decide)
  cases heq

theorem key_inj_reading :
    ("q:system:groq:big:rpd" = "q:system:groq:big:lane:perception" →
      Call.quota "system" "groq" "big" .rpd = .quotaPerceptionLane "system" "groq" "big") ↔
    ¬ (Collides (.quota "system" "groq" "big" .rpd) (.quotaPerceptionLane "system" "groq" "big") ∨
      Collides (.quotaPerceptionLane "system" "groq" "big") (.quota "system" "groq" "big" .rpd)) :=
  key_inj_iff ⟨by decide, by decide, fun _ _ _ _ h => by cases h⟩
    ⟨by decide, by decide, fun _ _ _ _ h => by cases h⟩ (by decide) (by decide)

end Call

end Keys

end LlmGateway
