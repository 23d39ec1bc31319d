import EdgeFirewall.Proofs.ResourceId.Reading
import EdgeFirewall.Proofs.Text.Case

/-! # The case of identifiers

Reading an identifier in lower case gives its components in lower case (`parse_lowerAscii`): no step
of the reading tells capitals from small letters. So texts that differ in case only are both read or
both rejected, and what is read differs in case only
(`Policy.Address.exists_parse_of_eqIgnoringCase`, for the addresses of policies). -/

namespace EdgeFirewall

namespace ResourceId

variable {key s : String} {found : List (String × String)} {id : ResourceId}

/-- Pairs in lower case. -/
def lowerPairs (found : List (String × String)) : List (String × String) :=
  found.map (Prod.map Text.lowerAscii Text.lowerAscii)

/-- An identifier with its components in lower case. -/
def lowered (id : ResourceId) : ResourceId where
  subscription := Text.lowerAscii id.subscription
  group := Text.lowerAscii id.group
  provider := id.provider.map Text.lowerAscii
  path := lowerPairs id.path

theorem pairs?_map_toLower (pieces : List (List Char)) :
    pairs? (pieces.map (List.map Char.toLower)) = (pairs? pieces).map lowerPairs := by
  induction pieces using pairs?.induct with
  | case1 => rfl
  | case2 key value rest hempty =>
      rw [List.map_cons, List.map_cons, pairs?, pairs?, if_pos hempty,
        if_pos (by simpa using hempty)]
      rfl
  | case3 key value rest hfull ih =>
      rw [List.map_cons, List.map_cons, pairs?, pairs?, if_neg hfull,
        if_neg (by simpa using hfull), ih, Option.map_map, Option.map_map]
      refine congrArg (Option.map · (pairs? rest)) (funext fun found => ?_)
      simp [lowerPairs, Text.lowerAscii_ofList]
  | case4 piece => rfl

theorem extract_lowerPairs (key : String) (found : List (String × String)) :
    extract key (lowerPairs found) =
      (extract key found).map (Prod.map Text.lowerAscii lowerPairs) := by
  induction found with
  | nil => rfl
  | cons e found ih =>
      have hcons : lowerPairs (e :: found) =
        (Text.lowerAscii e.1, Text.lowerAscii e.2) :: lowerPairs found := rfl
      rw [hcons, extract, extract, Text.eqIgnoringCase_lowerAscii, ih]
      split
      · rfl
      · cases extract key found <;> rfl

/-- The texts that errors quote do not matter for what is read. -/
theorem ofPairs_lowerPairs (source source' : String) (found : List (String × String)) :
    (ofPairs source (lowerPairs found)).toOption =
      (ofPairs source' found).toOption.map lowered := by
  unfold ofPairs
  rw [extract_lowerPairs]
  cases extract "subscriptions" found with
  | none => rfl
  | some r =>
      obtain ⟨subscription, found₁⟩ := r
      simp only [Option.map_some, Prod.map_apply, extract_lowerPairs]
      cases extract "resourceGroups" found₁ with
      | none => rfl
      | some r =>
          obtain ⟨group, found₂⟩ := r
          simp only [Option.map_some, Prod.map_apply, extract_lowerPairs]
          cases extract "providers" found₂ <;> rfl

theorem parse_lowerAscii (s : String) :
    (parse (Text.lowerAscii s)).toOption = (parse s).toOption.map lowered := by
  unfold parse
  rw [Text.toList_lowerAscii, Text.trimChars, Text.strip_map Text.isBlank_toLower, Text.trimChars]
  cases Text.strip Text.isBlank s.toList with
  | nil => rfl
  | cons c rest =>
      by_cases hc : c = '/'
      · subst hc
        have hstrip : stripSlashes (rest.map Char.toLower) =
            (stripSlashes rest).map Char.toLower :=
          Text.strip_map fun c => by
            rw [Bool.eq_iff_iff, beq_iff_eq, beq_iff_eq, Text.toLower_eq_slash_iff]
        have hslash : ('/' :: rest).map Char.toLower = '/' :: rest.map Char.toLower := rfl
        simp only [hslash, hstrip, Text.split_map Text.toLower_eq_slash_iff, pairs?_map_toLower]
        cases pairs? (Text.split '/' (stripSlashes rest)) with
        | none => rfl
        | some found => exact ofPairs_lowerPairs _ _ found
      · have hlower : c.toLower ≠ '/' := fun h => hc ((Text.toLower_eq_slash_iff c).mp h)
        rw [List.map_cons]
        split
        · next h => exact absurd h (by simp)
        · next h => exact absurd (List.cons.inj h).1 hlower
        · split
          · next h => exact absurd h (by simp)
          · next h => exact absurd (List.cons.inj h).1 hc
          · rfl

theorem get?_lowered (id : ResourceId) (key : String) :
    id.lowered.get? key = (id.get? key).map Text.lowerAscii := by
  unfold get? lowered lowerPairs
  rw [List.find?_map, Option.map_map, Option.map_map]
  have hkey : (fun e : String × String => Text.eqIgnoringCase e.1 key) ∘
      Prod.map Text.lowerAscii Text.lowerAscii = fun e => Text.eqIgnoringCase e.1 key :=
    funext fun e => Text.eqIgnoringCase_lowerAscii e.1 key
  rw [hkey]
  rfl

/-- The text of an identifier differs in case only, if its components do. -/
theorem eqIgnoringCase_text {subscription subscription' group group' provider provider' key name
    name' : String} (hsubscription : Text.eqIgnoringCase subscription subscription' = true)
    (hgroup : Text.eqIgnoringCase group group' = true)
    (hprovider : Text.eqIgnoringCase provider provider' = true)
    (hname : Text.eqIgnoringCase name name' = true) :
    Text.eqIgnoringCase (text ⟨subscription, group, some provider, [(key, name)]⟩)
      (text ⟨subscription', group', some provider', [(key, name')]⟩) = true := by
  rw [Text.eqIgnoringCase_iff] at hsubscription hgroup hprovider hname ⊢
  rw [toList_text, toList_text]
  simp [pairs, segments, Text.delimited, hsubscription, hgroup, hprovider, hname]

end ResourceId

namespace Policy.Address

variable {s t : String} {address : Policy.Address}

/-- An address in lower case. -/
def lowered (address : Policy.Address) : Policy.Address where
  group := Text.lowerAscii address.group
  name := Text.lowerAscii address.name

theorem parse_lowerAscii (s : String) :
    (parse (Text.lowerAscii s)).toOption = (parse s).toOption.map lowered := by
  have htoOption : ∀ s, (parse s).toOption = (ResourceId.parse s).toOption.bind fun id =>
      (id.get? idKey).map (⟨id.group, ·⟩) := by
    intro s
    unfold parse ResourceId.require
    cases ResourceId.parse s with
    | error e => rfl
    | ok id =>
        simp only [bind, Except.bind, Except.toOption, Option.bind_some]
        cases id.get? idKey <;> rfl
  rw [htoOption, htoOption, ResourceId.parse_lowerAscii]
  cases (ResourceId.parse s).toOption with
  | none => rfl
  | some id =>
      simp only [Option.map_some, Option.bind_some, ResourceId.get?_lowered, Option.map_map]
      rfl

/-- A text that differs in case only from an identifier of a policy is one as well, and its address
differs in case only. -/
theorem exists_parse_of_eqIgnoringCase (h : Text.eqIgnoringCase s t = true)
    (ht : parse t = .ok address) :
    ∃ address', parse s = .ok address' ∧ address'.lowered = address.lowered := by
  have hlower : Text.lowerAscii s = Text.lowerAscii t := beq_iff_eq.mp h
  have hs := parse_lowerAscii s
  rw [hlower, parse_lowerAscii, ht] at hs
  cases hparse : parse s with
  | error e => simp [hparse, Except.toOption] at hs
  | ok address' =>
      rw [hparse] at hs
      exact ⟨address', rfl, (Option.some.inj hs).symm⟩

end Policy.Address

end EdgeFirewall
