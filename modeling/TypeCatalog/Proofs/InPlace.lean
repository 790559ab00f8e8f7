import TypeCatalog.Packages
import TypeCatalog.Proofs.Storages

/-!
# Changes in place

A function that edits a body works out the new body before it puts it back, and so does not show in
which order its parts change.  This module gives the functions that change several parts of one body
as programs that change the parts one after the other.

* `InPlace` is the monad of such programs: what was changed before a failure stays changed.
* `InPlace.onPart` runs a program on a part of a value.  `InPlace.onPart_replace` says what this
  amounts to where the program changes nothing before it fails.
* `View.addFieldInPlace`, `Storages.addInPlace`, `Workspace.useInPlace` and `Packages.addInPlace`
  are the programs for the bodies that change in several places, each with the proof that it does
  what the function does.
-/

namespace TypeCatalog

/-- Changes of a value where it is.  What was changed before a failure stays changed. -/
abbrev InPlace (α : Type) := EStateM DefinitionError α

/-- A part of a value, if the value has it, and the way to put another part in its place. -/
abbrev Part (α β : Type) := α → Except DefinitionError (β × (β → α))

/-- To put back the part that is there changes nothing. -/
def Part.Faithful {α β : Type} (part : Part α β) : Prop :=
  ∀ {a : α} {b : β} {put : β → α}, part a = .ok (b, put) → put b = a

namespace InPlace

variable {α β : Type}

/-- Works out what becomes of the value, and changes it then. -/
def replace (change : α → Except DefinitionError α) : InPlace α Unit := fun a =>
  match change a with
  | .ok changed => .ok () changed
  | .error error => .error error a

/-- A check that does not look at the value. -/
def require (check : Except DefinitionError Unit) : InPlace α Unit := fun a =>
  match check with
  | .ok _ => .ok () a
  | .error error => .error error a

/-- Changes a part of the value in place. -/
def onPart (part : Part α β) (change : InPlace β Unit) : InPlace α Unit := fun a =>
  match part a with
  | .ok (b, put) =>
    match change b with
    | .ok _ changed => .ok () (put changed)
    | .error error changed => .error error (put changed)
  | .error error => .error error a

/-! ## Programs that check first -/

theorem run_get {next : α → InPlace α β} {a : α} : (get >>= next) a = next a a := rfl

theorem run_require {passed : Unit} {next : Unit → InPlace α β} {a : α} :
    (require (.ok passed) >>= next) a = next () a := rfl

theorem ok_bind {b : β} {next : β → Except DefinitionError α} :
    ((.ok b : Except DefinitionError β) >>= next) = next b := rfl

theorem require_bind_replace (check : Except DefinitionError Unit)
    (change : α → Except DefinitionError α) :
    (require check >>= fun _ => replace change) = replace fun a => check >>= fun _ => change a := by
  cases check <;> rfl

/-- A change that cannot fail may follow: it belongs to the change before. -/
theorem replace_bind_modify (change : α → Except DefinitionError α) (f : α → α) :
    (replace change >>= fun _ => modify f) = replace fun a => (change a).map f := by
  funext a
  change EStateM.bind (replace change) (fun _ => modify f) a = _
  unfold EStateM.bind replace
  dsimp only
  cases change a <;> rfl

theorem modify_eq_replace (f : α → α) :
    (modify f : InPlace α Unit) = replace fun a => .ok (f a) := rfl

theorem modify_bind_modify (f g : α → α) :
    (modify f >>= fun _ => modify g : InPlace α Unit) = modify fun a => g (f a) := rfl

/-- A part is replaced by replacing the whole.  Where the replacement fails, the part has not
changed, and is put back. -/
theorem onPart_replace {part : Part α β} (faithful : part.Faithful)
    (change : β → Except DefinitionError β) :
    onPart part (replace change) =
      replace fun a => part a >>= fun found => (change found.1).map found.2 := by
  funext a
  unfold onPart replace
  cases located : part a with
  | error error => simp only [located]; rfl
  | ok found =>
      obtain ⟨b, put⟩ := found
      have back := faithful located
      dsimp only
      rw [located]
      change _ = match (change b).map put with
        | .ok changed => EStateM.Result.ok () changed
        | .error error => .error error a
      cases change b with
      | ok changed => rfl
      | error error => simp only [Except.map, back]

/-! ## Programs that fail and programs that succeed -/

theorem exists_eq_error_of_run' {change : InPlace α Unit} {a : α}
    (failed : EStateM.run' change a = none) :
    ∃ error after, change a = .error error after := by
  unfold EStateM.run' EStateM.run at failed
  cases ran : change a with
  | ok _ _ =>
      rw [ran] at failed
      cases failed
  | error error after => exact ⟨error, after, rfl⟩

/-- The program runs to its end. -/
def Succeeds (change : InPlace α Unit) (a : α) : Prop := ∃ after, change a = .ok () after

theorem not_succeeds_of_eq_error {change : InPlace α Unit} {a after : α} {error : DefinitionError}
    (failed : change a = .error error after) : ¬ Succeeds change a := by
  intro runs
  obtain ⟨_, ran⟩ := runs
  rw [failed] at ran
  cases ran

theorem succeeds_require_iff {check : Except DefinitionError Unit} {next : Unit → InPlace α Unit}
    {a : α} : Succeeds (require check >>= next) a ↔ check = .ok () ∧ Succeeds (next ()) a := by
  cases check with
  | ok _ => exact ⟨fun runs => ⟨rfl, runs⟩, And.right⟩
  | error error => exact iff_of_false (not_succeeds_of_eq_error rfl) fun holds => by cases holds.1

end InPlace

/-! ## Bodies that change in several places -/

namespace View

def fieldsPart : Part View Fields := fun view =>
  .ok (view.fields, fun fields => { view with fields })

theorem fieldsPart_faithful : fieldsPart.Faithful := by
  intro view fields put located
  cases located
  rfl

/-- Lists a field of the view in one of its parts. -/
def list (view : View) (part : ViewPart) (name : String) : View :=
  match part with
  | .partition => { view with partition := view.partition ++ [name] }
  | .clustering => { view with clustering := view.clustering ++ [name] }
  | .value => { view with value := view.value ++ [name] }

/-- Appends a field to the fields of the view, and lists it in its part. -/
def addFieldInPlace (part : ViewPart) (field : Field) (config : Config) : InPlace View Unit := do
  InPlace.require (checkPart part field)
  InPlace.onPart fieldsPart (.replace fun fields => fields.push field .view config)
  modify fun view => view.list part field.name

theorem addFieldInPlace_eq (part : ViewPart) (field : Field) (config : Config) :
    addFieldInPlace part field config = .replace fun view => view.addField part field config := by
  unfold addFieldInPlace
  rw [InPlace.onPart_replace fieldsPart_faithful, InPlace.replace_bind_modify,
    InPlace.require_bind_replace]
  congr 1
  funext view
  unfold addField
  congr 1
  funext _
  change ((view.fields.push field .view config).map fun fields => { view with fields }).map _ = _
  cases view.fields.push field .view config with
  | ok fields => cases part <;> rfl
  | error error => rfl

end View

namespace Storages

/-- Enters a storage if it is not there, and extends its names. -/
def addInPlace (limit : Nat) (storage : QName) (names : List QName) : InPlace Storages Unit := do
  InPlace.require (storage.check limit)
  InPlace.require (checkNames limit names)
  modify fun storages => storages.insertIfNew storage {}
  modify fun storages =>
    storages.modify storage fun known => { known with names := known.names.insertMany names }

/-- Entering a storage and extending it makes of it what inserting the extended storage does. -/
theorem modify_insertIfNew (storages : Storages) (storage : QName) (extend : Storage → Storage) :
    (storages.insertIfNew storage {}).modify storage extend =
      storages.insert storage (extend ((storages[storage]?).getD {})) := by
  refine Std.ExtTreeMap.ext_getElem? fun other => ?_
  rw [Std.ExtTreeMap.getElem?_modify, getElem?_insert]
  by_cases same : storage = other
  · subst same
    rw [if_pos Std.ReflOrd.compare_self, if_pos rfl, Std.ExtTreeMap.getElem?_insertIfNew]
    cases found : storages[storage]? with
    | none =>
        have fresh : ¬ storage ∈ storages := by
          rw [Std.ExtTreeMap.mem_iff_isSome_getElem?, found]
          exact Bool.false_ne_true
        rw [if_pos ⟨Std.ReflOrd.compare_self, fresh⟩]
        rfl
    | some known =>
        have there : storage ∈ storages := by
          rw [Std.ExtTreeMap.mem_iff_isSome_getElem?, found]
          rfl
        rw [if_neg fun entered => entered.2 there]
        rfl
  · have apart : ¬ compare storage other = .eq := fun eq => same (Std.LawfulEqOrd.eq_of_compare eq)
    rw [if_neg apart, if_neg same, Std.ExtTreeMap.getElem?_insertIfNew,
      if_neg fun entered => apart entered.1]

theorem addInPlace_eq (limit : Nat) (storage : QName) (names : List QName) :
    addInPlace limit storage names = .replace fun storages => storages.add limit storage names := by
  unfold addInPlace
  rw [InPlace.modify_bind_modify, InPlace.modify_eq_replace, InPlace.require_bind_replace,
    InPlace.require_bind_replace]
  congr 1
  funext storages
  rw [modify_insertIfNew storages storage fun known =>
    { known with names := known.names.insertMany names }]
  rfl

/-- A storage can be added under any name that is in order, with types of such names. -/
theorem addInPlace_succeeds_iff {limit : Nat} {storage : QName} {names : List QName}
    {storages : Storages} :
    InPlace.Succeeds (addInPlace limit storage names) storages ↔
      storage.check limit = .ok () ∧ ∀ name ∈ names, name.check limit = .ok () := by
  unfold addInPlace
  rw [InPlace.succeeds_require_iff, InPlace.succeeds_require_iff, checkNames_eq_ok_iff]
  refine and_congr_right fun _ => and_iff_left ?_
  exact ⟨_, rfl⟩

end Storages

namespace Workspace

/-- Uses workspaces one after the other. -/
def useInPlace : List QName → InPlace Workspace Unit
  | [] => pure ()
  | name :: rest => do
    modify fun home => home.addUsed name
    useInPlace rest

theorem useInPlace_eq (names : List QName) :
    useInPlace names = modify fun home => names.foldl addUsed home := by
  induction names with
  | nil => rfl
  | cons name rest ih =>
      unfold useInPlace
      rw [ih, InPlace.modify_bind_modify]
      rfl

end Workspace

namespace Packages

/-- Binds a name to a path, in one direction and then in the other. -/
def addInPlace (limit : Nat) (pkg path : String) : InPlace Packages Unit := do
  InPlace.require (checkIdentifier limit pkg)
  if path = "" then throw (.packagePathMissing pkg)
  let packages ← get
  match packages.path? pkg with
  | some bound => if bound = path then pure () else throw (.packageBound pkg bound)
  | none =>
    match packages.name? path with
    | some bound => throw (.pathBound path bound)
    | none => do
      modify fun packages => { packages with paths := packages.paths.insert pkg path }
      modify fun packages => { packages with names := packages.names.insert path pkg }

theorem addInPlace_eq (limit : Nat) (pkg path : String) :
    addInPlace limit pkg path = .replace fun packages => packages.add limit pkg path := by
  funext packages
  unfold addInPlace InPlace.replace add
  cases checkIdentifier limit pkg with
  | error error => rfl
  | ok _ =>
      by_cases missing : path = ""
      · simp only [if_pos missing]
        rfl
      · simp only [if_neg missing]
        rw [InPlace.run_require, InPlace.run_get, InPlace.ok_bind]
        cases packages.path? pkg with
        | some bound =>
            by_cases same : bound = path
            · simp only [if_pos same]
              rfl
            · simp only [if_neg same]
              rfl
        | none => cases packages.name? path <;> rfl

end Packages

end TypeCatalog
