import TypeCatalog.Proofs.Draft.WellFormed

/-!
# Bodies of types

A step may put two types into the table, a new one and the workspace that declares it, and most
steps are about one type.  What it does to the body of a type depends on the form of the body, and
the form stays what it was.

* `Draft.BodyStep`: what a step may make of the body of one type.
* `Draft.Step.body`: the body of a type is new, or a step made it of the body that the type had.
* `Draft.Reachable.body_invariant`: the induction over the bodies of all types.
-/

namespace TypeCatalog

namespace Draft

variable {draft after : Draft} {name ws : QName} {t before changed : TypeDef}

/-- What a step may make of the body of a type of the given name and kind.  Nothing is said about
what happens inside functions, projectors, jobs and workspaces. -/
inductive BodyStep (draft : Draft) (name : QName) (kind : TypeKind) : Body → Body → Prop
  | kept (body : Body) : BodyStep draft name kind body body
  | structured {s changed : Structure} : StructureStep draft name kind s changed →
    BodyStep draft name kind (.structured s) (.structured changed)
  | unique {s changed : Structure} {unique : QName} {fields : List String} :
    s.addUnique unique fields draft.config = .ok changed →
    BodyStep draft name kind (.structured s) (.structured changed)
  | view {v changed : View} {part : ViewPart} {field : Field} : FieldSource draft name field →
    v.addField part field draft.config = .ok changed →
    BodyStep draft name kind (.view v) (.view changed)
  | function (f changed : Callable) : BodyStep draft name kind (.function f) (.function changed)
  | projector (p changed : Projector) :
    BodyStep draft name kind (.projector p) (.projector changed)
  | job (j changed : Job) : BodyStep draft name kind (.job j) (.job changed)
  | workspace (home changed : Workspace) :
    BodyStep draft name kind (.workspace home) (.workspace changed)

/-- Where the body comes from that a type has after a step. -/
inductive BodyOrigin (draft : Draft) (name : QName) (t : TypeDef) : Prop
  | declared : draft.types[name]? = none → Build.NewBody t.kind t.body → BodyOrigin draft name t
  | opened {home : Workspace} : draft.types[name]? = none → t.kind = .workspace →
    t.body = .workspace home → BodyOrigin draft name t
  | amended {before : TypeDef} : draft.types[name]? = some before → t.kind = before.kind →
    BodyStep draft name t.kind before.body t.body → BodyOrigin draft name t

/-- Only the type that is put into the table has to be looked at. -/
theorem BodyOrigin.of_withType {other : QName}
    (found : (draft.withType name changed).types[other]? = some t)
    (origin : BodyOrigin draft name changed) : BodyOrigin draft other t := by
  by_cases same : name = other
  · subst same
    rw [withType_getElem?_self] at found
    cases found
    exact origin
  · rw [withType_getElem?_of_ne same] at found
    exact .amended found rfl (.kept _)

/-- A type that keeps its kind is told by what has become of its body. -/
theorem BodyOrigin.of_body {body : Body} (found : draft.types[name]? = some before)
    (has : before.body = body) (kind : changed.kind = before.kind)
    (step : BodyStep draft name changed.kind body changed.body) : BodyOrigin draft name changed :=
  .amended found kind (has ▸ step)

theorem TypeStep.body (found : draft.types[name]? = some t)
    (step : TypeStep draft name t changed) : BodyOrigin draft name changed := by
  cases step with
  | comment _ | setAbstract | tag _ _ => exact .amended found rfl (.kept _)
  | structured has step => exact .of_body found has rfl (.structured step)
  | view has source added => exact .of_body found has rfl (.view source added)
  | function changed has => exact .of_body found has rfl (.function _ changed)
  | projector changed has => exact .of_body found has rfl (.projector _ changed)
  | job changed has => exact .of_body found has rfl (.job _ changed)

theorem WorkspaceStep.body (step : WorkspaceStep ws draft after)
    (found : after.types[name]? = some t) : BodyOrigin draft name t := by
  cases step with
  | @declare new _ kind body owner home _ free made foundHome isWorkspace =>
      by_cases isNew : new = name
      · subst isNew
        rw [withType_getElem?_self] at found
        cases found
        exact .declared (getElem?_eq_none_of_isBound free).2 (Build.newBody_of_bodyOf made)
      · rw [withType_getElem?_of_ne isNew] at found
        exact .of_withType found (.of_body foundHome isWorkspace rfl (.workspace _ _))
  | amend foundType _ _ step => exact .of_withType found (step.body foundType)
  | addUnique foundType _ _ isStructure _ _ added =>
      exact .of_withType found (.of_body foundType isStructure rfl (.unique added))
  | setAncestors foundHome isWorkspace _ _ | useWorkspaces foundHome isWorkspace _
  | setDescriptor foundHome isWorkspace _ _ =>
      exact .of_withType found (.of_body foundHome isWorkspace rfl (.workspace _ _))
  | setAbstract foundHome | comment _ foundHome =>
      exact .of_withType found (.amended foundHome rfl (.kept _))
  | addRule _ _ _ _ _ _ => exact .amended found rfl (.kept _)

/-- The body of a type after a step is new, or it is what the step made of the body that the type
had. -/
theorem Step.body (step : Step draft after) (found : after.types[name]? = some t) :
    BodyOrigin draft name t := by
  cases step with
  | bindPackage _ => exact .amended found rfl (.kept _)
  | addWorkspace _ free =>
      exact .of_withType found (.opened (getElem?_eq_none_of_isBound free).2 rfl rfl)
  | within _ step => exact step.body found
  | comment _ foundType => exact .of_withType found (.amended foundType rfl (.kept _))

/-! ## The induction over bodies -/

theorem body_initial {config : Config} (found : (initial config).types[name]? = some t) :
    Build.NewBody t.kind t.body ∨ t.kind = .workspace ∧ ∃ home, t.body = .workspace home := by
  obtain ⟨u, listed, same⟩ := List.mem_map.mp (initial_getElem?_iff.mp found)
  cases same
  rcases List.mem_cons.mp listed with rfl | isData
  · exact .inr ⟨rfl, _, rfl⟩
  · obtain ⟨kind, _, rfl⟩ := List.mem_map.mp isData
    exact .inl (.data _)

/-- What is said of the kinds and the bodies of types holds of all types of a reachable draft, if it
holds of workspaces and of new bodies, if steps of a body keep it, and if steps of the draft keep it
where the body stays. -/
theorem Reachable.body_invariant {motive : Draft → TypeKind → Body → Prop}
    (workspace : ∀ draft home, motive draft .workspace (.workspace home))
    (declared : ∀ draft kind body, Reachable draft → Build.NewBody kind body →
      motive draft kind body)
    (changed : ∀ draft name kind body later, Reachable draft → body.Fits kind →
      BodyStep draft name kind body later → motive draft kind body → motive draft kind later)
    (kept : ∀ before after kind body, Step before after → motive before kind body →
      motive after kind body)
    (reached : Reachable draft) :
    ∀ (name : QName) (t : TypeDef), draft.types[name]? = some t →
      motive draft t.kind t.body := by
  induction reached with
  | initial config =>
      intro name t found
      rcases body_initial found with new | ⟨isWorkspace, home, body⟩
      · exact declared _ _ _ (.initial config) new
      · rw [isWorkspace, body]
        exact workspace _ home
  | @apply draft edit reached ih =>
      rcases apply_eq_or_step draft edit with same | step
      · rw [same]
        exact ih
      · intro name t found
        cases step.body found with
        | declared _ new => exact declared _ _ _ (reached.apply edit) new
        | opened _ isWorkspace body =>
            rw [isWorkspace, body]
            exact workspace _ _
        | @amended before foundBefore kind taken =>
            have held := ih name before foundBefore
            have fits := reached.wellFormed.fits foundBefore
            rw [← kind] at held fits
            exact kept _ _ _ _ step (changed _ _ _ _ _ reached fits taken held)

end Draft

end TypeCatalog
