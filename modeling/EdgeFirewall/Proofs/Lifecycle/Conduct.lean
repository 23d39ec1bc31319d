import EdgeFirewall.Proofs.Lifecycle.Rejections
import EdgeFirewall.Proofs.Service.Work

/-! # What a call of a host does over HTTP

The requests of a call are about the one policy that the call is about (`HostCall.IsAbout`), or ask
after what the service does with it (`Provider.attempt_proceeds`). Their order and their answers do
not matter for that, so the steps of the life of a policy are gone through once, and what they bring
about follows from what a request and a sleep bring about. -/

namespace EdgeFirewall

open Http

/-- A group and a name are those of the policy that a call is about: those in its identifier, up to
the case of letters, or else those that its attributes declare. -/
inductive HostCall.IsAbout (call : HostCall) (group name : String) : Prop
  | identified {identifier : String} {address : Policy.Address}
      (hidentifier : call.identifier? = some identifier)
      (hparse : Policy.Address.parse identifier = .ok address)
      (hgroup : Text.eqIgnoringCase group address.group = true)
      (hname : Text.eqIgnoringCase name address.name = true) : IsAbout call group name
  | declared {a : Attributes} {p : Policy} (hidentifier : call.identifier? = none)
      (hattributes : call.attributes? = some a) (hdeclared : Policy.ofAttributes a = .ok p)
      (hgroup : group = p.resourceGroup) (hname : name = p.name) : IsAbout call group name

namespace Lifecycle

variable {e : Endpoint} {subscription : String} {names : String → String → Prop}
  {known : List Response}

theorem apply_proceeds {p : Policy} (hnames : names p.resourceGroup p.name) :
    Proceeds (e.Concerns subscription names) known (fun _ _ => True)
      fun ctx => apply (e.client subscription ctx) p := by
  unfold apply
  refine .bind (Endpoint.putPolicy_proceeds hnames p.toDocument) ?_
  rintro _ (err | operation) hnamed
  · exact .pure trivial
  · refine .bind (Endpoint.waitForOperation_proceeds (hnamed operation rfl)) ?_
    rintro _ (err | _) -
    · exact .pure trivial
    · refine .bind (Endpoint.getPolicy_proceeds hnames) ?_
      rintro _ (err | d) -
      · dsimp only
        split <;> exact .pure trivial
      · dsimp only
        split <;> exact .pure trivial

theorem create_proceeds {a : Attributes} (own : String)
    (hnames : ∀ p, Policy.ofAttributes a = .ok p → names p.resourceGroup p.name) :
    Proceeds (e.Concerns subscription names) known (fun _ _ => True)
      fun ctx => create (e.client subscription ctx) own a := by
  unfold create
  cases hdeclared : declared a with
  | error err => exact .pure trivial
  | ok p =>
      have hp := hnames p (declared_eq_ok_iff.mp hdeclared)
      refine .bind (Endpoint.getPolicy_proceeds hp) ?_
      rintro _ (err | d) -
      · dsimp only
        split
        · exact apply_proceeds hp
        · exact .pure trivial
      · exact .pure trivial

variable {identifier : String}
  (hnames : ∀ address, Policy.Address.parse identifier = .ok address →
    ∀ group name, Text.eqIgnoringCase group address.group = true →
      Text.eqIgnoringCase name address.name = true → names group name)

include hnames

theorem read_proceeds :
    Proceeds (e.Concerns subscription names) known (fun _ _ => True)
      fun ctx => read (e.client subscription ctx) identifier := by
  unfold read
  cases hparse : Policy.Address.parse identifier with
  | error err => exact .pure trivial
  | ok address =>
      refine .bind (Endpoint.getPolicy_proceeds (hnames address hparse _ _ (by simp) (by simp))) ?_
      rintro _ (err | d) -
      · dsimp only
        split <;> exact .pure trivial
      · exact .pure trivial

/-- An update gets the policy that the identifier names, and puts the one that the attributes
declare; these differ in the case of letters at most. -/
theorem update_proceeds (a : Attributes) :
    Proceeds (e.Concerns subscription names) known (fun _ _ => True)
      fun ctx => update (e.client subscription ctx) identifier a := by
  unfold update
  cases hparse : Policy.Address.parse identifier with
  | error err => exact .pure trivial
  | ok address =>
      dsimp only
      cases declared a with
      | error err => exact .pure trivial
      | ok p =>
          dsimp only
          cases hreplaced : replacements address p with
          | cons v vs => exact .pure trivial
          | nil =>
              refine .bind
                (Endpoint.getPolicy_proceeds (hnames address hparse _ _ (by simp) (by simp))) ?_
              rintro _ (err | d) -
              · dsimp only
                split <;> exact .pure trivial
              · obtain ⟨hname, hgroup⟩ := replacements_eq_nil_iff.mp hreplaced
                exact apply_proceeds (hnames address hparse _ _ hgroup hname)

theorem delete_proceeds :
    Proceeds (e.Concerns subscription names) known (fun _ _ => True)
      fun ctx => delete (e.client subscription ctx) identifier := by
  unfold delete
  cases hparse : Policy.Address.parse identifier with
  | error err => exact .pure trivial
  | ok address =>
      refine .bind
        (Endpoint.deletePolicy_proceeds (hnames address hparse _ _ (by simp) (by simp))) ?_
      rintro _ (err | operation) hnamed
      · dsimp only
        split <;> exact .pure trivial
      · refine .bind (Endpoint.waitForOperation_proceeds (hnamed operation rfl)) ?_
        rintro _ (err | _) -
        · dsimp only
          split <;> exact .pure trivial
        · exact .pure trivial

end Lifecycle

namespace Provider

/-- A call asks about the policy that it is about, and after what the service does with it. -/
theorem attempt_proceeds (p : Provider) (e : Endpoint) (subscription : String) (call : HostCall) :
    Proceeds (e.Concerns subscription call.IsAbout) [] (fun _ _ => True)
      fun ctx => p.attempt (e.client subscription ctx) call := by
  cases call with
  | create r =>
      exact .bind (Lifecycle.create_proceeds p.subscription fun policy hpolicy =>
        .declared rfl rfl hpolicy rfl rfl) fun _ _ _ => .pure trivial
  | read key identifier =>
      cases identifier with
      | none => exact .pure trivial
      | some identifier =>
          exact .bind (Lifecycle.read_proceeds fun address hparse group name hgroup hname =>
            .identified rfl hparse hgroup hname) fun _ _ _ => .pure trivial
  | update key identifier target =>
      exact .bind (Lifecycle.update_proceeds (fun address hparse group name hgroup hname =>
        .identified rfl hparse hgroup hname) target.attributes) fun _ _ _ => .pure trivial
  | delete key identifier =>
      exact .bind (Lifecycle.delete_proceeds fun address hparse group name hgroup hname =>
        .identified rfl hparse hgroup hname) fun _ _ _ => .pure trivial

end Provider

end EdgeFirewall
