import Cess.FileBank.Laws.Commit
import Cess.FileBank.Laws.Lifecycle

/-!
# Miner notices and members

Two lists the pallet keeps for others, and what runs of calls do to them. `InvalidFile` is
each miner's queue of hashes to delete: `add_invalid_file`, `clear_user_file` and
`replace_file` push onto it, and the miner acknowledges a hash with `clear_invalid_file`.
`Members` is root's list, which `contains_member` answers from.

The families of `Laws.Footprint` keep both lists apart: the file calls only push onto a
queue (`AuxWrites.invalid`), and the in-place edits are `MembersWrites` (`add_member`,
`del_member`) and `AckWrites` (`clear_invalid_file`). So each call's effect on the two lists
is read off its footprint lemma, from any store.

* **Notices are never lost** (`notices_kept_until_acknowledged`): over any run from any
  store in which a miner never signs `clear_invalid_file`, the miner's queue only grows at
  its end. The miner's own acknowledgement drops every copy of the one hash it names and
  nothing else (`Call.next_invalidFile`).
* **Members over a run** (`reachable_members_unique`): in every reachable store `Members`
  lists each account at most once, and a call changes it only as root's `add_member` (an
  account appended that was not listed) or root's `del_member` (an account dropped). The
  step lemma (`Call.next_members`) holds from any store.
-/

set_option autoImplicit false

namespace Cess.FileBank

/-- The store after a call relates to the one before by any reflexive relation its dispatch
relates by. -/
theorem Call.next_of_steps {R : Store → Store → Prop} (hrefl : ∀ s, R s s) (env : Env) (c : Call)
    (h : Steps R (c.run env)) (s : Store) : R s (c.next env s) := by
  unfold Call.next
  have := h s
  split <;> simp_all only [storeOf]

/-! ## Miner notices -/

/-- `m`'s queue as it was, with hashes pushed at its end. -/
def NoticesGrow (m : AccountId) (s s' : Store) : Prop := s.invalidFile m <+: s'.invalidFile m

theorem chain_noticesGrow (m : AccountId) : Chain (NoticesGrow m) :=
  ⟨fun _ => List.prefix_refl _, fun _ _ _ h₁ h₂ => h₁.trans h₂⟩

theorem fileWrites_noticesGrow (m : AccountId) : FileWrites (NoticesGrow m) :=
  ⟨fun _ _ _ _ _ => List.prefix_refl _, fun _ _ _ _ _ _ _ => List.prefix_refl _,
    fun _ _ _ _ _ _ _ _ _ _ _ _ _ _ => List.prefix_refl _,
    fun _ _ _ _ _ _ _ _ => List.prefix_refl _, fun _ _ => List.prefix_refl _⟩

theorem pkgWrites_noticesGrow (m : AccountId) : PkgWrites (NoticesGrow m) :=
  ⟨⟨fun _ _ _ _ _ _ _ _ _ => List.prefix_refl _, fun _ _ _ _ _ _ _ => List.prefix_refl _⟩,
    fun _ _ _ _ _ _ _ _ _ => List.prefix_refl _⟩

theorem fillerWrites_noticesGrow (m : AccountId) : FillerWrites (NoticesGrow m) :=
  ⟨fun _ _ _ _ => List.prefix_refl _, fun _ _ _ => List.prefix_refl _,
    fun _ _ => List.prefix_refl _⟩

/-- A push onto any queue keeps `m`'s queue as a prefix. -/
theorem auxWrites_noticesGrow (m : AccountId) : AuxWrites (NoticesGrow m) :=
  ⟨fun _ _ _ => List.prefix_refl _, fun s acc l => by
    simp only [NoticesGrow, invalidSlot, Function.update_apply]
    split
    · next hm => subst hm; exact List.prefix_append _ _
    · exact List.prefix_refl _, fun _ _ => List.prefix_refl _⟩

theorem membersWrites_noticesGrow (m : AccountId) : MembersWrites (NoticesGrow m) :=
  ⟨fun _ _ => List.prefix_refl _⟩

/-- From any store, a call leaves `m`'s queue with hashes pushed at its end, or is `m`'s own
`clear_invalid_file` of a hash and drops every copy of it. -/
theorem Call.next_invalidFile (env : Env) (c : Call) (m : AccountId) (s : Store) :
    s.invalidFile m <+: (c.next env s).invalidFile m ∨
      ∃ h, c = .clearInvalidFile (.signed m) h ∧
        (c.next env s).invalidFile m = (s.invalidFile m).filter (· ≠ h) := by
  have hc := chain_noticesGrow m
  have hf := fileWrites_noticesGrow m
  have hp := pkgWrites_noticesGrow m
  have hl := fillerWrites_noticesGrow m
  have ha := auxWrites_noticesGrow m
  have hm := membersWrites_noticesGrow m
  have grows : Steps (NoticesGrow m) (c.run env) → NoticesGrow m s (c.next env s) :=
    fun h => Call.next_of_steps hc.refl env c h s
  cases c with
  | clearInvalidFile o h =>
    have hk : ∀ s sender, o = .signed sender →
        NoticesGrow m s ((invalidSlot sender).write ((s.invalidFile sender).filter (· ≠ h)) s) ∨
          o = .signed m ∧ ((invalidSlot sender).write ((s.invalidFile sender).filter (· ≠ h))
            s).invalidFile m = (s.invalidFile m).filter (· ≠ h) := fun s sender ho => by
      by_cases hsender : sender = m
      · subst hsender
        exact .inr ⟨ho, Function.update_same _ _ _⟩
      · exact .inl (by simp only [NoticesGrow, invalidSlot,
          Function.update_noteq (Ne.symm hsender), List.prefix_refl])
    rcases Call.next_of_steps (R := fun s s' => NoticesGrow m s s' ∨
        o = .signed m ∧ s'.invalidFile m = (s.invalidFile m).filter (· ≠ h))
        (fun _ => .inl (List.prefix_refl _)) env (.clearInvalidFile o h)
        (steps_clearInvalidFile (fun _ => .inl (List.prefix_refl _)) env o h hk) s with
      hgrow | ⟨rfl, hack⟩
    · exact .inl hgrow
    · exact .inr ⟨h, rfl, hack⟩
  | addMember o acc => exact .inl (grows (steps_addMember hc hm env o acc))
  | delMember o acc => exact .inl (grows (steps_delMember hc hm o acc))
  | _ => exact .inl (grows (Call.run_steps_of_files hc hf hp hl ha env _ rfl))

/-- Whether a call is `m`'s own `clear_invalid_file`. -/
def Call.acknowledges (m : AccountId) : Call → Bool
  | .clearInvalidFile (.signed sender) _ => sender = m
  | _ => false

/-- Over any run from any store in which the miner never signs `clear_invalid_file`, every
store the run passes through holds the miner's queue as it was at the start, with hashes
pushed at its end: no deletion notice is lost before the miner acknowledges it. -/
theorem notices_kept_until_acknowledged (m : AccountId) :
    ∀ (s : Store) (run : List (Env × Call)), (∀ p ∈ run, p.2.acknowledges m = false) →
      ∀ s' ∈ Call.trace s run, s.invalidFile m <+: s'.invalidFile m
  | _, [], _, _, h => nomatch h
  | s, (env, c) :: rest, hrun, s', hs' => by
    have hstep : s.invalidFile m <+: (c.next env s).invalidFile m := by
      rcases Call.next_invalidFile env c m s with hgrow | ⟨h, rfl, -⟩
      · exact hgrow
      · simpa [Call.acknowledges] using hrun _ (List.mem_cons_self _ _)
    rcases List.mem_cons.mp hs' with rfl | hs'
    · exact hstep
    · exact hstep.trans (notices_kept_until_acknowledged m _ rest
        (fun p hp => hrun p (List.mem_cons_of_mem _ hp)) s' hs')

/-- Account 1's deletion of its file: miner 5 is told to delete `[1]`. -/
def noticedStore : Store := (Call.deleteFile (.signed 1) [1]).next Env.accepting chargedStore

/-- Another account's acknowledgement of `[1]` and a second notice leave miner 5's notice in
place. -/
theorem notice_survives_others :
    noticedStore.invalidFile 5 = [[1]] ∧
    (∀ p ∈ [(Env.accepting, Call.clearInvalidFile (.signed 9) [1]),
        (Env.accepting, Call.addInvalidFile 5 [2])], p.2.acknowledges 5 = false) ∧
    ∀ s' ∈ Call.trace noticedStore [(Env.accepting, Call.clearInvalidFile (.signed 9) [1]),
        (Env.accepting, Call.addInvalidFile 5 [2])],
      noticedStore.invalidFile 5 <+: s'.invalidFile 5 :=
  ⟨rfl, by decide, notices_kept_until_acknowledged 5 _ _ (by decide)⟩

/-! ## Members -/

theorem ensureRoot_eq_ok {o : Origin} {s s' : Store} {u : Unit} :
    ensureRoot o s = .ok u s' ↔ o = .root ∧ s' = s := by
  cases o <;> simp [ensureRoot, EStateM.throw, eq_comm]

/-- `Members` as it was. -/
def MembersKept (s s' : Store) : Prop := s'.members = s.members

theorem chain_membersKept : Chain MembersKept :=
  ⟨fun _ => rfl, fun _ _ _ h₁ h₂ => h₂.trans h₁⟩

theorem fileWrites_membersKept : FileWrites MembersKept :=
  ⟨fun _ _ _ _ _ => rfl, fun _ _ _ _ _ _ _ => rfl, fun _ _ _ _ _ _ _ _ _ _ _ _ _ _ => rfl,
    fun _ _ _ _ _ _ _ _ => rfl, fun _ _ => rfl⟩

theorem pkgWrites_membersKept : PkgWrites MembersKept :=
  ⟨⟨fun _ _ _ _ _ _ _ _ _ => rfl, fun _ _ _ _ _ _ _ => rfl⟩, fun _ _ _ _ _ _ _ _ _ => rfl⟩

theorem fillerWrites_membersKept : FillerWrites MembersKept :=
  ⟨fun _ _ _ _ => rfl, fun _ _ _ => rfl, fun _ _ => rfl⟩

theorem auxWrites_membersKept : AuxWrites MembersKept :=
  ⟨fun _ _ _ => rfl, fun _ _ _ => rfl, fun _ _ => rfl⟩

/-- `add_member` appends an account it did not list, on root's call, or leaves `Members`. -/
theorem members_addMember (env : Env) (origin : Origin) (acc : AccountId) :
    Steps (fun s s' => s'.members = s.members ∨
      origin = .root ∧ acc ∉ s.members ∧ s'.members = s.members ++ [acc])
      (addMember env origin acc) := by
  unfold addMember
  refine ReadOnly.bind_steps_of (readOnly_ensureRoot _) (fun _ _ _ h => (ensureRoot_eq_ok.mp h).1)
    (fun _ hroot => ?_) fun _ => .inl rfl
  refine Slot.get_bind_steps fun cur => ?_
  refine ensure_bind_steps (fun _ _ => .inl rfl) fun hnew => ?_
  refine Slot.steps_tryMutate_readOnly (fun _ _ => .inl rfl) (fun _ => readOnly_okOr _ _)
    fun s v' h hread => ?_
  obtain ⟨⟨-, rfl⟩, -⟩ := okOr_eq_ok.mp h |>.imp_left tryPush_eq_some.mp
  subst hread
  exact .inr ⟨hroot, hnew, rfl⟩

/-- `del_member` drops an account, on root's call, or leaves `Members`. -/
theorem members_delMember (origin : Origin) (acc : AccountId) :
    Steps (fun s s' => s'.members = s.members ∨
      origin = .root ∧ s'.members = s.members.filter (· ≠ acc)) (delMember origin acc) := by
  unfold delMember
  refine ReadOnly.bind_steps_of (readOnly_ensureRoot _) (fun _ _ _ h => (ensureRoot_eq_ok.mp h).1)
    (fun _ hroot => ?_) fun _ => .inl rfl
  refine Slot.steps_tryMutate_readOnly (fun _ => .inl rfl) (fun _ => readOnly_pure _)
    fun _ _ h => ?_
  obtain ⟨rfl, -⟩ := pure_eq_ok.mp h
  exact .inr ⟨hroot, rfl⟩

/-- From any store, a call leaves `Members` as it was, or is root's `add_member` of an account
not listed and appends it, or is root's `del_member` and drops the account. -/
theorem Call.next_members (env : Env) (c : Call) (s : Store) :
    (c.next env s).members = s.members ∨
    (∃ acc, c = .addMember .root acc ∧ acc ∉ s.members ∧
      (c.next env s).members = s.members ++ [acc]) ∨
    (∃ acc, c = .delMember .root acc ∧ (c.next env s).members = s.members.filter (· ≠ acc)) := by
  have hc := chain_membersKept
  have hf := fileWrites_membersKept
  have hp := pkgWrites_membersKept
  have hl := fillerWrites_membersKept
  have ha := auxWrites_membersKept
  have kept : Steps MembersKept (c.run env) → (c.next env s).members = s.members :=
    fun h => Call.next_of_steps hc.refl env c h s
  cases c with
  | clearInvalidFile o h =>
    exact .inl (kept (steps_clearInvalidFile hc.refl env o h fun _ _ _ => rfl))
  | addMember o acc =>
    rcases Call.next_of_steps (fun _ => .inl rfl) env (.addMember o acc)
        (members_addMember env o acc) s with
      h | ⟨rfl, hnew, h⟩
    · exact .inl h
    · exact .inr (.inl ⟨acc, rfl, hnew, h⟩)
  | delMember o acc =>
    rcases Call.next_of_steps (fun _ => .inl rfl) env (.delMember o acc)
        (members_delMember o acc) s with
      h | ⟨rfl, h⟩
    · exact .inl h
    · exact .inr (.inr ⟨acc, rfl, h⟩)
  | _ => exact .inl (kept (Call.run_steps_of_files hc hf hp hl ha env _ rfl))

/-- In every store reachable from empty storage, `Members` lists each account at most once,
and the next call, whatever it is and whatever the runtime answers, leaves it as it is,
appends an account it does not list (root's `add_member`), or drops one (root's
`del_member`). -/
theorem reachable_members_unique {s : Store} (hs : Reachable s) :
    s.members.Nodup ∧ ∀ (env : Env) (c : Call),
      (c.next env s).members = s.members ∨
      (∃ acc, c = .addMember .root acc ∧ acc ∉ s.members ∧
        (c.next env s).members = s.members ++ [acc]) ∨
      (∃ acc, c = .delMember .root acc ∧ (c.next env s).members = s.members.filter (· ≠ acc)) := by
  refine ⟨?_, fun env c => Call.next_members env c s⟩
  induction hs with
  | empty => exact List.nodup_nil
  | step env c _ ih =>
    rcases Call.next_members env c _ with h | ⟨acc, -, hnew, h⟩ | ⟨acc, -, h⟩ <;> rw [h]
    · exact ih
    · exact ih.append (List.nodup_singleton acc) (List.disjoint_singleton.mpr hnew)
    · exact ih.filter _

/-- The members of the store with a declaration and a filler: none, and so none twice. -/
theorem declared_store_members_unique :
    declaredWithFillerStore.members.Nodup ∧ ∀ (env : Env) (c : Call),
      (c.next env declaredWithFillerStore).members = declaredWithFillerStore.members ∨
      (∃ acc, c = .addMember .root acc ∧ acc ∉ declaredWithFillerStore.members ∧
        (c.next env declaredWithFillerStore).members = declaredWithFillerStore.members ++ [acc]) ∨
      (∃ acc, c = .delMember .root acc ∧ (c.next env declaredWithFillerStore).members =
        declaredWithFillerStore.members.filter (· ≠ acc)) :=
  reachable_members_unique declaredWithFillerStore_reachable

end Cess.FileBank
