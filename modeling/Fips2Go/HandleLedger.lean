import Mathlib.Data.List.Basic
import Mathlib.Logic.Function.Basic

/-!
# Ledgers of handles

Several holders acquire and close handles and share one slot in which a handle
is published.  A holder may have a fresh handle nobody else knows of, may have
seen one in the slot, and may owe the closing of one.  A ledger is sound when
fresh handles are known to their holder alone, no handle in the slot is due to
be closed, and every open handle is accounted for.  This file proves that the
operations of such a protocol keep a ledger sound.
-/

namespace HandleLedger

/-- What one holder has to do with handles: a fresh one, one it has seen in
the slot, and one it is going to close without another look. -/
structure Role where
  fresh : Option Nat
  seen : Option Nat
  due : Option Nat
  deriving DecidableEq, Repr

def Role.nothing : Role := ⟨none, none, none⟩

def Role.Mentions (role : Role) (handle : Nat) : Prop :=
  role.fresh = some handle ∨ role.seen = some handle ∨ role.due = some handle

structure Ledger (Holder : Type*) where
  slot : Option Nat
  opened : List Nat
  next : Nat
  role : Holder → Role

/-- A role fits the slot, the open handles and the handles given out so far. -/
structure Fits (slot : Option Nat) (opened : List Nat) (next : Nat) (role : Role) : Prop where
  mentioned : ∀ handle, role.Mentions handle → handle < next
  alive : ∀ handle, role.fresh = some handle → handle ∈ opened
  unpublished : ∀ handle, role.fresh = some handle → slot ≠ some handle
  unseen : ∀ handle, role.fresh = some handle →
    role.seen ≠ some handle ∧ role.due ≠ some handle
  withheld : ∀ handle, role.due = some handle → slot ≠ some handle

/-- Somebody in the ledger is bound to close the handle. -/
def Owed {Holder : Type*} (role : Holder → Role) (handle : Nat) : Prop :=
  ∃ holder, (role holder).fresh = some handle ∨ (role holder).due = some handle

/-- `answered` are the handles somebody answers for who is not in the ledger. -/
structure Sound {Holder : Type*} (ledger : Ledger Holder) (answered : Nat → Prop) :
    Prop where
  published : ∀ handle, ledger.slot = some handle → handle < ledger.next
  acquired : ∀ handle ∈ ledger.opened, handle < ledger.next
  fits : ∀ holder, Fits ledger.slot ledger.opened ledger.next (ledger.role holder)
  alone : ∀ holder handle, (ledger.role holder).fresh = some handle →
    ∀ other, other ≠ holder → ¬ (ledger.role other).Mentions handle
  accounted : ∀ handle ∈ ledger.opened,
    ledger.slot = some handle ∨ Owed ledger.role handle ∨ answered handle

namespace Sound

variable {Holder : Type*} {ledger : Ledger Holder} {answered answers : Nat → Prop}

/-- Nothing but the answers changes. -/
theorem mono (sound : Sound ledger answered)
    (kept : ∀ handle ∈ ledger.opened, answered handle → answers handle) :
    Sound ledger answers :=
  { sound with
    accounted := fun handle isOpen =>
      (sound.accounted handle isOpen).imp_right (Or.imp_right (kept handle isOpen)) }

/-- A handle somebody could know is not fresh with anybody else. -/
theorem not_fresh (sound : Sound ledger answered) {handle : Nat} {holder other : Holder}
    (known : (ledger.role holder).Mentions handle ∨ ledger.slot = some handle ∨
      ∃ third, (ledger.role third).due = some handle)
    (distinct : holder ≠ other) : (ledger.role other).fresh ≠ some handle := by
  intro fresh
  rcases known with mentions | published | ⟨third, due⟩
  · exact sound.alone other handle fresh holder distinct mentions
  · exact (sound.fits other).unpublished handle fresh published
  · by_cases own : third = other
    · exact ((sound.fits other).unseen handle fresh).2 (own ▸ due)
    · exact sound.alone other handle fresh third own (.inr (.inr due))

section Update

variable [DecidableEq Holder] {holder : Holder} {role : Role}

theorem owed_self {roles : Holder → Role} {handle : Nat}
    (owes : role.fresh = some handle ∨ role.due = some handle) :
    Owed (Function.update roles holder role) handle :=
  ⟨holder, by rwa [Function.update_self]⟩

theorem owed_other {roles : Holder → Role} {handle : Nat} {other : Holder}
    (distinct : other ≠ holder)
    (owes : (roles other).fresh = some handle ∨ (roles other).due = some handle) :
    Owed (Function.update roles holder role) handle :=
  ⟨other, by rwa [Function.update_of_ne distinct]⟩

/-- A holder takes a role in which it mentions only what it could know. -/
theorem alone_update (sound : Sound ledger answered)
    (fresh : ∀ handle, role.fresh = some handle →
      (ledger.role holder).fresh = some handle)
    (known : ∀ handle, role.seen = some handle ∨ role.due = some handle →
      (ledger.role holder).Mentions handle ∨ ledger.slot = some handle ∨
        ∃ third, (ledger.role third).due = some handle) :
    ∀ one handle, (Function.update ledger.role holder role one).fresh = some handle →
      ∀ other, other ≠ one →
        ¬ (Function.update ledger.role holder role other).Mentions handle := by
  intro one handle isFresh other distinct mentions
  by_cases own : one = holder
  · subst own
    rw [Function.update_self] at isFresh
    rw [Function.update_of_ne distinct] at mentions
    exact sound.alone one handle (fresh handle isFresh) other distinct mentions
  · rw [Function.update_of_ne own] at isFresh
    by_cases moved : other = holder
    · subst moved
      rw [Function.update_self] at mentions
      rcases mentions with isFresh' | mentions
      · have mentions : (ledger.role other).Mentions handle := .inl (fresh handle isFresh')
        exact sound.alone one handle isFresh other distinct mentions
      · exact sound.not_fresh (known handle mentions) distinct isFresh
    · rw [Function.update_of_ne moved] at mentions
      exact sound.alone one handle isFresh other distinct mentions

/-- If what the holder owed and what was answered for finds somebody, every
open handle does. -/
theorem accounted_update (sound : Sound ledger answered) {slot : Option Nat} {handle : Nat}
    (isOpen : handle ∈ ledger.opened)
    (published : ledger.slot = some handle →
      slot = some handle ∨ Owed (Function.update ledger.role holder role) handle ∨
        answers handle)
    (settled : (ledger.role holder).fresh = some handle ∨
        (ledger.role holder).due = some handle ∨ answered handle →
      slot = some handle ∨ Owed (Function.update ledger.role holder role) handle ∨
        answers handle) :
    slot = some handle ∨ Owed (Function.update ledger.role holder role) handle ∨
      answers handle := by
  rcases sound.accounted handle isOpen with current | ⟨one, owes⟩ | answer
  · exact published current
  · by_cases own : one = holder
    · subst own
      exact settled (owes.imp_right .inl)
    · exact .inr (.inl (owed_other own owes))
  · exact settled (.inr (.inr answer))

/-- A holder takes another role: it lets go of a handle, looks at the slot, or
comes to owe a closing. -/
theorem turn (sound : Sound ledger answered)
    (fresh : ∀ handle, role.fresh = some handle →
      (ledger.role holder).fresh = some handle ∧
        role.seen ≠ some handle ∧ role.due ≠ some handle)
    (known : ∀ handle, role.seen = some handle ∨ role.due = some handle →
      (ledger.role holder).Mentions handle ∨ ledger.slot = some handle ∨
        ∃ third, (ledger.role third).due = some handle)
    (withheld : ∀ handle, role.due = some handle → ledger.slot ≠ some handle)
    (settled : ∀ handle ∈ ledger.opened, (ledger.role holder).fresh = some handle ∨
        (ledger.role holder).due = some handle ∨ answered handle →
      ledger.slot = some handle ∨ Owed (Function.update ledger.role holder role) handle ∨
        answers handle) :
    Sound { ledger with role := Function.update ledger.role holder role } answers where
  published := sound.published
  acquired := sound.acquired
  fits := by
    apply (Function.forall_update_iff _ fun _ => Fits _ _ _).mpr
    refine ⟨⟨?_, ?_, ?_, fun handle isFresh => (fresh handle isFresh).2, withheld⟩,
      fun one _ => sound.fits one⟩
    · rintro handle (isFresh | mentions)
      · exact (sound.fits holder).mentioned handle (.inl (fresh handle isFresh).1)
      · rcases known handle mentions with mentions | published | ⟨third, due⟩
        · exact (sound.fits holder).mentioned handle mentions
        · exact sound.published handle published
        · exact (sound.fits third).mentioned handle (.inr (.inr due))
    · exact fun handle isFresh => (sound.fits holder).alive handle (fresh handle isFresh).1
    · exact fun handle isFresh =>
        (sound.fits holder).unpublished handle (fresh handle isFresh).1
  alone := sound.alone_update (fun handle isFresh => (fresh handle isFresh).1) known
  accounted := fun handle isOpen =>
    sound.accounted_update isOpen .inl (settled handle isOpen)

/-- A holder without a handle of its own acquires one. -/
theorem acquire (sound : Sound ledger answered)
    (idle : ledger.role holder = .nothing)
    (acquires : role = ⟨some ledger.next, none, none⟩) :
    Sound { ledger with
      opened := ledger.next :: ledger.opened
      next := ledger.next + 1
      role := Function.update ledger.role holder role } answered := by
  subst acquires
  have new (one : Holder) : ¬ (ledger.role one).Mentions ledger.next :=
    fun mentions => Nat.lt_irrefl _ ((sound.fits one).mentioned _ mentions)
  constructor
  case published => exact fun handle current => Nat.lt_succ_of_lt (sound.published handle current)
  case acquired =>
    intro handle isOpen
    rcases List.mem_cons.mp isOpen with rfl | earlier
    · exact Nat.lt_succ_self _
    · exact Nat.lt_succ_of_lt (sound.acquired handle earlier)
  case fits =>
    apply (Function.forall_update_iff _ fun _ => Fits _ _ _).mpr
    constructor
    · constructor
      case mentioned =>
        rintro handle (⟨⟨⟩⟩ | ⟨⟨⟩⟩ | ⟨⟨⟩⟩)
        exact Nat.lt_succ_self _
      case alive =>
        rintro handle ⟨⟩
        exact List.mem_cons_self ..
      case unpublished =>
        rintro handle ⟨⟩ current
        exact Nat.lt_irrefl _ (sound.published _ current)
      case unseen => exact fun handle _ => ⟨by simp, by simp⟩
      case withheld => rintro handle ⟨⟩
    · intro one _
      have fits := sound.fits one
      exact ⟨fun handle mentions => Nat.lt_succ_of_lt (fits.mentioned handle mentions),
        fun handle fresh => List.mem_cons_of_mem _ (fits.alive handle fresh),
        fits.unpublished, fits.unseen, fits.withheld⟩
  case alone =>
    intro one handle fresh other distinct mentions
    by_cases own : one = holder
    · subst own
      simp only [Function.update_self, Option.some.injEq] at fresh
      simp only [Function.update_of_ne distinct] at mentions
      exact new other (fresh ▸ mentions)
    · simp only [Function.update_of_ne own] at fresh
      by_cases moved : other = holder
      · subst moved
        simp only [Function.update_self] at mentions
        rcases mentions with ⟨⟨⟩⟩ | ⟨⟨⟩⟩ | ⟨⟨⟩⟩
        exact new one (.inl fresh)
      · simp only [Function.update_of_ne moved] at mentions
        exact sound.alone one handle fresh other distinct mentions
  case accounted =>
    intro handle isOpen
    rcases List.mem_cons.mp isOpen with rfl | earlier
    · exact .inr (.inl (owed_self (.inl rfl)))
    · apply sound.accounted_update earlier .inl
      rintro (fresh | due | answer)
      · simp [idle, Role.nothing] at fresh
      · simp [idle, Role.nothing] at due
      · exact .inr (.inr answer)

/-- A holder publishes its fresh handle and accounts for the one before. -/
theorem publish (sound : Sound ledger answered) {handle : Nat}
    (fresh : (ledger.role holder).fresh = some handle)
    (shown : role.fresh = none) (notDue : role.due ≠ some handle)
    (known : ∀ other, role.seen = some other ∨ role.due = some other →
      (ledger.role holder).Mentions other)
    (settled : ∀ other ∈ ledger.opened, ledger.slot = some other ∨
        (ledger.role holder).due = some other ∨ answered other →
      Owed (Function.update ledger.role holder role) other ∨ answers other) :
    Sound { ledger with
      slot := some handle
      role := Function.update ledger.role holder role } answers where
  published := by
    rintro _ ⟨⟩
    exact (sound.fits holder).mentioned handle (.inl fresh)
  acquired := sound.acquired
  fits := by
    apply (Function.forall_update_iff _ fun _ => Fits _ _ _).mpr
    constructor
    · constructor
      case mentioned =>
        rintro other (isFresh | mentions)
        · cases shown.symm.trans isFresh
        · exact (sound.fits holder).mentioned other (known other mentions)
      case withheld =>
        rintro other due ⟨⟩
        exact notDue due
      all_goals
        intro other isFresh
        cases shown.symm.trans isFresh
    · intro one distinct
      have fits := sound.fits one
      have other := sound.alone holder handle fresh one distinct
      refine ⟨fits.mentioned, fits.alive, ?_, fits.unseen, ?_⟩
      · rintro _ isFresh ⟨⟩
        exact other (.inl isFresh)
      · rintro _ due ⟨⟩
        exact other (.inr (.inr due))
  alone := by
    apply sound.alone_update
    · intro other isFresh
      cases shown.symm.trans isFresh
    · exact fun other mentions => .inl (known other mentions)
  accounted := by
    intro other isOpen
    apply sound.accounted_update isOpen
    · exact fun current => .inr (settled other isOpen (.inl current))
    · rintro (isFresh | owed)
      · exact .inl (fresh.symm.trans isFresh)
      · exact .inr (settled other isOpen (.inr owed))

/-- A holder empties the slot and accounts for the handle in it. -/
theorem withdraw (sound : Sound ledger answered) (shown : role.fresh = none)
    (known : ∀ other, role.seen = some other ∨ role.due = some other →
      (ledger.role holder).Mentions other)
    (settled : ∀ other ∈ ledger.opened, ledger.slot = some other ∨
        (ledger.role holder).fresh = some other ∨
        (ledger.role holder).due = some other ∨ answered other →
      Owed (Function.update ledger.role holder role) other ∨ answers other) :
    Sound { ledger with
      slot := none
      role := Function.update ledger.role holder role } answers where
  published := by rintro _ ⟨⟩
  acquired := sound.acquired
  fits := by
    apply (Function.forall_update_iff _ fun _ => Fits _ _ _).mpr
    constructor
    · constructor
      case mentioned =>
        rintro other (isFresh | mentions)
        · cases shown.symm.trans isFresh
        · exact (sound.fits holder).mentioned other (known other mentions)
      case withheld => simp
      all_goals
        intro other isFresh
        cases shown.symm.trans isFresh
    · intro one _
      have fits := sound.fits one
      exact ⟨fits.mentioned, fits.alive, by simp, fits.unseen, by simp⟩
  alone := by
    apply sound.alone_update
    · intro other isFresh
      cases shown.symm.trans isFresh
    · exact fun other mentions => .inl (known other mentions)
  accounted := by
    intro other isOpen
    apply sound.accounted_update isOpen
    · exact fun current => .inr (settled other isOpen (.inl current))
    · exact fun owed => .inr (settled other isOpen (.inr owed))

/-- A holder closes a handle it knows and keeps the rest of its role. -/
theorem discard (sound : Sound ledger answered) {closed : Nat}
    (mentions : (ledger.role holder).Mentions closed)
    (fresh : ∀ handle, role.fresh = some handle →
      (ledger.role holder).fresh = some handle ∧ handle ≠ closed)
    (seen : role.seen = none) (due : role.due = none)
    (settled : ∀ handle ∈ ledger.opened, handle ≠ closed →
      (ledger.role holder).fresh = some handle ∨ (ledger.role holder).due = some handle →
        role.fresh = some handle) :
    Sound { ledger with
      opened := ledger.opened.filter (· ≠ closed)
      role := Function.update ledger.role holder role } answered where
  published := sound.published
  acquired := fun handle isOpen => sound.acquired handle (List.mem_of_mem_filter isOpen)
  fits := by
    apply (Function.forall_update_iff _ fun _ => Fits _ _ _).mpr
    constructor
    · constructor
      case mentioned =>
        rintro handle (isFresh | isSeen | isDue)
        · exact (sound.fits holder).mentioned handle (.inl (fresh handle isFresh).1)
        · cases seen.symm.trans isSeen
        · cases due.symm.trans isDue
      case alive =>
        intro handle isFresh
        obtain ⟨before, kept⟩ := fresh handle isFresh
        simpa [kept] using (sound.fits holder).alive handle before
      case unpublished =>
        exact fun handle isFresh =>
          (sound.fits holder).unpublished handle (fresh handle isFresh).1
      case unseen => simp [seen, due]
      case withheld => simp [due]
    · intro one distinct
      have fits := sound.fits one
      refine ⟨fits.mentioned, fun handle isFresh => ?_, fits.unpublished, fits.unseen,
        fits.withheld⟩
      have kept : handle ≠ closed := by
        rintro rfl
        exact sound.not_fresh (.inl mentions) distinct.symm isFresh
      simpa [kept] using fits.alive handle isFresh
  alone := by
    apply sound.alone_update
    · exact fun handle isFresh => (fresh handle isFresh).1
    · simp [seen, due]
  accounted := by
    intro handle isOpen
    obtain ⟨isOpen, kept⟩ : handle ∈ ledger.opened ∧ handle ≠ closed := by
      simpa using isOpen
    apply sound.accounted_update isOpen .inl
    rintro (isFresh | isDue | answer)
    · exact .inr (.inl (owed_self (.inl (settled handle isOpen kept (.inl isFresh)))))
    · exact .inr (.inl (owed_self (.inl (settled handle isOpen kept (.inr isDue)))))
    · exact .inr (.inr answer)

end Update

end Sound

end HandleLedger
