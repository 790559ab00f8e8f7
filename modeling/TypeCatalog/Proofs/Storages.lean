import Mathlib.Data.List.Basic
import TypeCatalog.Extension
import TypeCatalog.Proofs.Checks
import TypeCatalog.Proofs.Table

/-!
# What storages come to hold

The storages of an extension are added and extended in one way and commented on in another, and
either may be refused.  Whatever is attempted, the storages are what the attempts that succeeded
make of them: adding collects names, and the last comment counts.

* `Storages.add_eq_ok_iff`, `Storages.setComment_eq_ok_iff`: which attempts succeed, and what comes
  of them.
* `Storages.Accounts`: the storages are what some attempts make of them; kept by every attempt.
* `Storages.attemptAll_accumulates`: what holds after any attempts.
-/

namespace TypeCatalog

namespace Storages

variable {storages after : Storages} {limit : Nat} {storage other name : QName}
  {names : List QName} {comment : Comment} {known : Storage}

/-! ## Reading storages -/

/-- The names of a storage, of which there are none if there is no such storage. -/
def namesOf (storages : Storages) (storage : QName) : NameSet :=
  ((storages[storage]?).map Storage.names).getD ∅

def commentOf (storages : Storages) (storage : QName) : Comment :=
  (storages[storage]?).bind Storage.comment

/-- The storage is put in place of what has its name. -/
theorem namesOf_insert (storages : Storages) (storage other : QName) (known : Storage) :
    namesOf (storages.insert storage known) other =
      if storage = other then known.names else storages.namesOf other := by
  unfold namesOf
  rw [getElem?_insert]
  split <;> rfl

theorem commentOf_insert (storages : Storages) (storage other : QName) (known : Storage) :
    commentOf (storages.insert storage known) other =
      if storage = other then known.comment else storages.commentOf other := by
  unfold commentOf
  rw [getElem?_insert]
  split <;> rfl

theorem namesOf_of_found (found : storages[storage]? = some known) :
    storages.namesOf storage = known.names := by
  unfold namesOf
  rw [found]
  rfl

/-! ## Adding and extending -/

/-- The storages with a storage that has some more names, and that is new if it was not there. -/
def extend (storages : Storages) (storage : QName) (names : List QName) : Storages :=
  storages.insert storage
    ⟨(storages.namesOf storage).insertMany names, storages.commentOf storage⟩

theorem checkNames_eq_ok_iff :
    checkNames limit names = .ok () ↔ ∀ name ∈ names, name.check limit = .ok () := by
  induction names with
  | nil => exact iff_of_true rfl fun _ listed => nomatch listed
  | cons first rest ih =>
      rw [List.forall_mem_cons, ← ih, checkNames]
      cases first.check limit with
      | ok _ => simp
      | error error => simp

/-- An addition is accepted if all the names in it are in order; whether the storage is there does
not matter. -/
theorem add_eq_ok_iff :
    storages.add limit storage names = .ok after ↔
      (storage.check limit = .ok () ∧ ∀ name ∈ names, name.check limit = .ok ()) ∧
        storages.extend storage names = after := by
  unfold add
  rw [Check.guard_eq_ok_iff, Check.guard_eq_ok_iff, checkNames_eq_ok_iff, and_assoc,
    Check.pure_eq_ok_iff]
  unfold extend namesOf commentOf
  cases storages[storage]? <;> rfl

theorem mem_extend_iff :
    other ∈ storages.extend storage names ↔ other = storage ∨ other ∈ storages :=
  mem_insert_iff

theorem mem_namesOf_extend_iff :
    name ∈ (storages.extend storage names).namesOf other ↔
      storage = other ∧ name ∈ names ∨ name ∈ storages.namesOf other := by
  unfold extend
  rw [namesOf_insert]
  split
  next same =>
    subst same
    rw [Std.ExtTreeSet.mem_insertMany_list, List.contains_iff_mem]
    simp [or_comm]
  next apart => simp [apart]

/-- Extending a storage leaves all comments in place. -/
theorem commentOf_extend (storages : Storages) (storage other : QName) (names : List QName) :
    (storages.extend storage names).commentOf other = storages.commentOf other := by
  unfold extend
  rw [commentOf_insert]
  split
  next same => rw [same]
  next => rfl

/-! ## Comments -/

/-- A comment is accepted if the storage is there. -/
theorem setComment_eq_ok_iff :
    storages.setComment storage comment = .ok after ↔
      ∃ known, storages[storage]? = some known ∧
        storages.insert storage { known with comment := comment } = after := by
  unfold setComment
  cases found : storages[storage]? with
  | none => simp
  | some known => simp

/-! ## Runs of attempts -/

/-- Something that is asked of storages; additions come with the limit on identifiers that is in
force. -/
inductive Attempt where
  | add (limit : Nat) (storage : QName) (names : List QName)
  | setComment (storage : QName) (comment : Comment)
  deriving DecidableEq, Repr

def Attempt.run (storages : Storages) : Attempt → Except DefinitionError Storages
  | add limit storage names => storages.add limit storage names
  | setComment storage comment => storages.setComment storage comment

/-- The storages after an attempt; one that is refused changes nothing. -/
def attempt (storages : Storages) (asked : Attempt) : Storages :=
  match asked.run storages with
  | .ok after => after
  | .error _ => storages

def attemptAll (storages : Storages) (attempts : List Attempt) : Storages :=
  attempts.foldl attempt storages

/-- Those of the attempts that succeed when they are made one after the other. -/
def succeeding (storages : Storages) : List Attempt → List Attempt
  | [] => []
  | asked :: rest =>
    if (asked.run storages).isOk then asked :: succeeding (storages.attempt asked) rest
    else succeeding (storages.attempt asked) rest

/-- What the attempt makes the comment of a storage, if it comments on it. -/
def Attempt.commentOn (storage : QName) : Attempt → Option Comment
  | add _ _ _ => none
  | setComment other comment => if other = storage then some comment else none

/-- The comment that was put on a storage last, if any was. -/
def lastComment (storage : QName) (done : List Attempt) : Comment :=
  ((done.filterMap (Attempt.commentOn storage)).getLast?).join

theorem lastComment_concat (storage : QName) (done : List Attempt) (asked : Attempt) :
    lastComment storage (done ++ [asked]) =
      (asked.commentOn storage).getD (lastComment storage done) := by
  unfold lastComment
  rw [List.filterMap_append]
  cases said : asked.commentOn storage with
  | none => simp [said]
  | some comment => simp [said]

/-- The storages are what the attempts make of them: those that were added, with all the names that
were added to them and the comment that was put on them last. -/
structure Accounts (done : List Attempt) (storages : Storages) : Prop where
  present : ∀ storage : QName,
    storage ∈ storages ↔ ∃ limit names, Attempt.add limit storage names ∈ done
  names : ∀ storage name : QName, name ∈ storages.namesOf storage ↔
    ∃ limit names, Attempt.add limit storage names ∈ done ∧ name ∈ names
  comment : ∀ storage : QName, storages.commentOf storage = lastComment storage done

namespace Accounts

variable {done : List Attempt}

theorem empty : Accounts [] ∅ where
  present storage := by simp
  names storage name := by simp [namesOf]
  comment storage := by simp [commentOf, lastComment]

theorem extend (accounts : Accounts done storages) (limit : Nat) (storage : QName)
    (names : List QName) :
    Accounts (done ++ [.add limit storage names]) (storages.extend storage names) where
  present other := by
    rw [mem_extend_iff, accounts.present]
    simp only [List.mem_append, List.mem_singleton, Attempt.add.injEq, exists_or]
    rw [or_comm]
    exact or_congr_right
      ⟨fun same => ⟨limit, names, rfl, same, rfl⟩, fun ⟨_, _, _, same, _⟩ => same⟩
  names other name := by
    rw [mem_namesOf_extend_iff, accounts.names]
    simp only [List.mem_append, List.mem_singleton, Attempt.add.injEq, or_and_right, exists_or]
    rw [or_comm]
    refine or_congr_right ⟨fun added => ?_, fun added => ?_⟩
    · obtain ⟨same, listed⟩ := added
      exact ⟨limit, names, ⟨rfl, same.symm, rfl⟩, listed⟩
    · obtain ⟨_, _, ⟨_, same, rfl⟩, listed⟩ := added
      exact ⟨same.symm, listed⟩
  comment other := by
    rw [commentOf_extend, lastComment_concat, accounts.comment]
    rfl

theorem setComment (accounts : Accounts done storages) (found : storages[storage]? = some known)
    (comment : Comment) :
    Accounts (done ++ [.setComment storage comment])
      (storages.insert storage { known with comment := comment }) where
  present other := by
    have isThere : storage ∈ storages :=
      Std.ExtTreeMap.mem_iff_isSome_getElem?.mpr (by rw [found]; rfl)
    rw [mem_insert_iff, or_iff_right_of_imp fun same => same ▸ isThere, accounts.present]
    simp
  names other name := by
    have kept : namesOf (storages.insert storage { known with comment := comment }) other =
        storages.namesOf other := by
      rw [namesOf_insert]
      split
      next same => rw [← same, namesOf_of_found found]
      next => rfl
    rw [kept, accounts.names]
    simp
  comment other := by
    rw [commentOf_insert, lastComment_concat, accounts.comment]
    unfold Attempt.commentOn
    dsimp only
    split <;> rfl

/-- Whatever is accepted is accounted for. -/
theorem run (accounts : Accounts done storages) {asked : Attempt}
    (accepted : asked.run storages = .ok after) : Accounts (done ++ [asked]) after := by
  cases asked with
  | add limit storage names =>
      obtain ⟨_, rfl⟩ := add_eq_ok_iff.mp accepted
      exact accounts.extend limit storage names
  | setComment storage comment =>
      obtain ⟨known, found, rfl⟩ := setComment_eq_ok_iff.mp accepted
      exact accounts.setComment found comment

/-- Storages are accounted for by the attempts that succeed, however many come between them that
are refused. -/
theorem attemptAll (accounts : Accounts done storages) (attempts : List Attempt) :
    Accounts (done ++ succeeding storages attempts) (storages.attemptAll attempts) := by
  unfold Storages.attemptAll
  induction attempts generalizing storages done with
  | nil =>
      rw [succeeding, List.append_nil]
      exact accounts
  | cons asked rest ih =>
      rw [succeeding, List.foldl_cons]
      cases outcome : asked.run storages with
      | ok after =>
          have left : storages.attempt asked = after := by
            unfold attempt
            rw [outcome]
          have later := ih (accounts.run outcome)
          rw [List.append_assoc] at later
          rw [left]
          exact later
      | error error =>
          have left : storages.attempt asked = storages := by
            unfold attempt
            rw [outcome]
          rw [left]
          exact ih accounts

end Accounts

/-- An addition succeeds or not whatever the storages hold. -/
theorem exists_add_iff :
    (∃ after, storages.add limit storage names = .ok after) ↔
      storage.check limit = .ok () ∧ ∀ name ∈ names, name.check limit = .ok () := by
  simp only [add_eq_ok_iff, exists_and_left, exists_eq', and_true]

theorem isOk_run_add_iff :
    ((Attempt.add limit storage names).run storages).isOk = true ↔
      storage.check limit = .ok () ∧ ∀ name ∈ names, name.check limit = .ok () := by
  rw [← @exists_add_iff storages]
  change (storages.add limit storage names).isOk = true ↔ _
  cases storages.add limit storage names with
  | ok after => exact iff_of_true rfl ⟨after, rfl⟩
  | error error => exact iff_of_false Bool.false_ne_true (by simp)

/-- The additions that succeed are those of which the names are in order, wherever they stand. -/
theorem add_mem_succeeding_iff (storages : Storages) (attempts : List Attempt) :
    .add limit storage names ∈ succeeding storages attempts ↔
      .add limit storage names ∈ attempts ∧
        storage.check limit = .ok () ∧ ∀ name ∈ names, name.check limit = .ok () := by
  induction attempts generalizing storages with
  | nil => simp [succeeding]
  | cons asked rest ih =>
      have own (same : .add limit storage names = asked) :
          (asked.run storages).isOk = true ↔
            storage.check limit = .ok () ∧ ∀ name ∈ names, name.check limit = .ok () := by
        rw [← same]
        exact isOk_run_add_iff
      rw [succeeding, List.mem_cons, or_and_right, ← ih (storages.attempt asked)]
      split
      next succeeds =>
        rw [List.mem_cons]
        exact or_congr_left ⟨fun same => ⟨same, (own same).mp succeeds⟩, And.left⟩
      next refused =>
        exact (or_iff_right fun valid => refused ((own valid.1).mpr valid.2)).symm

/-- After any attempts, accepted or refused, the storages are what those that succeeded make of
them, in the order of their names.  An addition succeeds just if the names in it are in order.  So
attempts with the same successful additions, in whatever order and however often, leave the same
names; and an addition leaves all comments in place. -/
theorem attemptAll_accumulates (attempts : List Attempt) :
    Accounts (succeeding ∅ attempts) (attemptAll ∅ attempts) ∧
    (attemptAll ∅ attempts).toList.Pairwise (fun a b => compare a.1 b.1 = .lt) ∧
    (∀ limit storage names,
      ((∃ after, (attemptAll ∅ attempts).add limit storage names = .ok after) ↔
        storage.check limit = .ok () ∧ ∀ name ∈ names, name.check limit = .ok ()) ∧
      (.add limit storage names ∈ succeeding ∅ attempts ↔ .add limit storage names ∈ attempts ∧
        storage.check limit = .ok () ∧ ∀ name ∈ names, name.check limit = .ok ())) ∧
    (∀ others : List Attempt,
      (∀ limit storage names, .add limit storage names ∈ succeeding ∅ attempts ↔
        .add limit storage names ∈ succeeding ∅ others) →
      ∀ storage, (attemptAll ∅ others).namesOf storage = (attemptAll ∅ attempts).namesOf storage) ∧
    ∀ limit storage names after, (attemptAll ∅ attempts).add limit storage names = .ok after →
      ∀ other, after.commentOf other = (attemptAll ∅ attempts).commentOf other := by
  have accounts (attempts : List Attempt) :
      Accounts (succeeding ∅ attempts) (attemptAll ∅ attempts) := Accounts.empty.attemptAll attempts
  refine ⟨accounts attempts, Std.ExtTreeMap.ordered_keys_toList, fun limit storage names =>
    ⟨exists_add_iff, add_mem_succeeding_iff ∅ attempts⟩, fun others same storage => ?_, ?_⟩
  · refine Std.ExtTreeSet.ext_mem fun name => ?_
    rw [(accounts others).names, (accounts attempts).names]
    simp only [same]
  · intro limit storage names after added other
    obtain ⟨_, rfl⟩ := add_eq_ok_iff.mp added
    exact commentOf_extend ..

/-- Records are added with a comment and then extended, once in vain, and a log is commented on
before it is there. -/
def recordsAndLog : List Attempt := [
  .add 255 (.sys "records") [⟨"shop", "order"⟩],
  .setComment (.sys "records") (some "all of them"),
  .add 255 (.sys "records") [⟨"shop", "item"⟩, .null],
  .setComment (.sys "WLog") (some "log"),
  .add 255 (.sys "records") [⟨"shop", "price"⟩],
  .add 255 (.sys "WLog") []]

/-- The records have the names that were added in success and keep their comment, the log has none,
and the records come to have no other names if their additions are made the other way round. -/
theorem attemptAll_accumulates_recordsAndLog :
    (∀ name, name ∈ (attemptAll ∅ recordsAndLog).namesOf (.sys "records") ↔
      name = ⟨"shop", "order"⟩ ∨ name = ⟨"shop", "price"⟩) ∧
    (attemptAll ∅ recordsAndLog).commentOf (.sys "records") = some "all of them" ∧
    .sys "WLog" ∈ attemptAll ∅ recordsAndLog ∧
    (attemptAll ∅ recordsAndLog).commentOf (.sys "WLog") = none ∧
    (attemptAll ∅ recordsAndLog.reverse).namesOf (.sys "records") =
      (attemptAll ∅ recordsAndLog).namesOf (.sys "records") := by
  obtain ⟨accounts, _, additions, permuted, _⟩ := attemptAll_accumulates recordsAndLog
  have done : succeeding ∅ recordsAndLog = [
      .add 255 (.sys "records") [⟨"shop", "order"⟩],
      .setComment (.sys "records") (some "all of them"),
      .add 255 (.sys "records") [⟨"shop", "price"⟩],
      .add 255 (.sys "WLog") []] := by decide +kernel
  rw [done] at accounts
  refine ⟨fun name => ?_, ?_, ?_, ?_, permuted _ (fun limit storage names => ?_) _⟩
  · rw [accounts.names]
    simp [QName.sys, or_and_right, exists_or, and_assoc]
  · rw [accounts.comment]
    rfl
  · rw [accounts.present]
    exact ⟨255, [], by simp⟩
  · rw [accounts.comment]
    rfl
  · rw [(additions limit storage names).2, add_mem_succeeding_iff, List.mem_reverse]

end Storages

end TypeCatalog
