import Mathlib
import QronosAgent.Lib.JsonRoundTrip
import QronosAgent.Update.Store

/-! The records of an update store and its floor. A call that removes staged files does so before it
saves the state without them: the records stay true while such a call is not cut short, and while
the files it removes are not also those of the record that stays. -/
namespace QronosAgent.Update
open Lib

variable {v : Verifier}

/-- A removal, once its first file is gone, goes on to the end, and the state is saved. -/
def RemovesWhole (fates : StoreFates) : Prop :=
  fates .unlinkInstaller = .goes → fates .unlinkManifest = .goes ∧ fates .saveState = .goes

/-- The other record does not name the files that go. -/
def KeepsOther (fates : StoreFates) (gone : Record) (other : Option Record) : Prop :=
  fates .unlinkInstaller = .goes →
    ∀ r, other = some r → r.package.sha256 ≠ gone.package.sha256

namespace StoreDisk

structure MayStage (v : Verifier) (d : StoreDisk) (st : Staging)
    (source : ByteArray) (fates : StoreFates) : Prop where
  sized : ∀ r, d.state.Names r → r.package.sha256 = st.sha256 →
    r.package.bytes = st.update.payload.package.bytes
  whole : ∀ r, Store.replaced d.state st.sha256 = some r → RemovesWhole fates
  keeps : ∀ r, Store.replaced d.state st.sha256 = some r → KeepsOther fates r d.state.previous
  serves : ∀ r, d.state.staged = some r → r.package.sha256 = st.sha256 →
    fates .publishManifest = .goes → fates .saveState = .goes ∨
      ∀ keys version data, d.Usable v keys version data →
        ((d.write (st.sha256, .installer) source).write (st.sha256, .manifest) st.envelope).Usable
          v keys version data

/-- What `confirm` must meet: the previous record is another package's, and goes as a whole. -/
def MayConfirm (d : StoreDisk) (fates : StoreFates) : Prop :=
  ∀ staged previous, d.state.staged = some staged → d.state.previous = some previous →
    previous.package.sha256 ≠ staged.package.sha256 → RemovesWhole fates

/-- What `discard` must meet. -/
def MayDiscard (d : StoreDisk) (fates : StoreFates) : Prop :=
  ∀ r, d.state.staged = some r → RemovesWhole fates ∧ KeepsOther fates r d.state.previous

end StoreDisk

/-- The condition on each step of a run. -/
def StoreSys.Careful (v : Verifier) (s : StoreSys) : StoreMove → Prop
  | .stage process source fates =>
    ∀ st, s.staging process = some st → s.disk.MayStage v st source fates
  | .confirm _ _ fates => s.disk.MayConfirm fates
  | .discard fates => s.disk.MayDiscard fates
  | _ => True

/-- The recorded floor, `none` being below every version. -/
def FloorLe (a b : Option VersionText) : Prop :=
  ∀ floor, a = some floor → ∃ floor', b = some floor' ∧ 0 ≤ floor'.compare floor

theorem FloorLe.refl (a : Option VersionText) : FloorLe a a :=
  fun floor h => ⟨floor, h, (VersionText.compare_self floor).ge⟩

theorem FloorLe.trans {a b c : Option VersionText} (hab : FloorLe a b) (hbc : FloorLe b c) :
    FloorLe a c := by
  intro floor h
  obtain ⟨floor', hb, hle⟩ := hab floor h
  obtain ⟨floor'', hc, hle'⟩ := hbc floor' hb
  exact ⟨floor'', hc, VersionText.compare_nonneg_trans hle' hle⟩

theorem floorLe_raisedFloor (floor : Option VersionText) (r : Record) :
    FloorLe floor (some (Store.raisedFloor floor r)) := by
  rintro old rfl
  refine ⟨_, rfl, ?_⟩
  unfold Store.raisedFloor
  simp only
  split
  · rename_i hlt
    exact hlt.le
  · exact (VersionText.compare_self old).ge

namespace StoreDisk
variable {d d' : StoreDisk}

theorem returns_lockedState {fates : StoreFates} {state : StoreState} :
    Fated.Returns Store.lockedState fates d state d' ↔
      fates .lock = .goes ∧ fates .readState = .goes ∧ state = d.state ∧ d' = d := by
  unfold Store.lockedState
  simp only [Fated.returns_bind, Fated.returns_effect, Fated.returns_look]
  constructor
  · rintro ⟨_, _, ⟨hlock, rfl⟩, _, _, ⟨hread, rfl⟩, rfl, rfl⟩
    exact ⟨hlock, hread, rfl, rfl⟩
  · rintro ⟨hlock, hread, rfl, rfl⟩
    exact ⟨(), d', ⟨hlock, rfl⟩, (), d', ⟨hread, rfl⟩, rfl, rfl⟩

theorem returns_ownedExisting {fates : StoreFates} {name : Digest × Part} {data : ByteArray} :
    Fated.Returns (Store.ownedExisting name) fates d data d' ↔
      d.staged.get? name = some data ∧ d' = d := by
  unfold Store.ownedExisting
  simp only [Fated.returns_bind, Fated.returns_look, Fated.returns_demand]
  constructor
  · rintro ⟨_, _, ⟨rfl, rfl⟩, hget, rfl⟩
    exact ⟨hget, rfl⟩
  · rintro ⟨hget, rfl⟩
    exact ⟨_, d', ⟨rfl, rfl⟩, hget, rfl⟩

/-- Only the state, the files of the staged record and the arguments count for `handoff`. -/
theorem usable_iff {keys : Keys} {version : VersionText} {data : InstalledData} :
    d.Usable v keys version data ↔ ∃ r envelope installer u, d.state.staged = some r ∧
      d.staged.get? (r.package.sha256, .manifest) = some envelope ∧
      envelope.size ≤ maxEnvelopeBytes ∧
      d.staged.get? (r.package.sha256, .installer) = some installer ∧
      installer.size = r.package.bytes ∧
      verifyUpdate v envelope (some installer) keys
        ⟨version, data, d.state.securityFloor⟩ = .ok u ∧
      u.payload.package.sha256 = r.package.sha256 := by
  unfold Usable Store.handoff Store.save
  simp only [Fated.returns_bind, returns_lockedState, returns_ownedExisting, Fated.returns_effect,
    Fated.returns_demand, Fated.returns_require, Fated.returns_ofExcept, Fated.returns_pure]
  constructor
  · rintro ⟨_, _, _, _, ⟨-, -, rfl, rfl⟩, r, _, ⟨hstaged, rfl⟩, envelope, _, ⟨henvelope, rfl⟩, _, _,
      ⟨-, rfl⟩, _, _, ⟨hlimit, rfl⟩, installer, _, ⟨hinstaller, rfl⟩, _, _, ⟨hsize, rfl⟩, u, _,
      ⟨hverify, rfl⟩, _, _, ⟨hsha, rfl⟩, -⟩
    exact ⟨r, envelope, installer, u, hstaged, henvelope, hlimit, hinstaller, hsize, hverify, hsha⟩
  · rintro ⟨r, envelope, installer, u, hstaged, henvelope, hlimit, hinstaller, hsize, hverify, hsha⟩
    exact ⟨(r, u), d.save (d.state.withPhase (.handedOff r)), d.state, d, ⟨rfl, rfl, rfl, rfl⟩, r, d,
      ⟨hstaged, rfl⟩, envelope, d, ⟨henvelope, rfl⟩, (), d, ⟨rfl, rfl⟩, (), d, ⟨hlimit, rfl⟩,
      installer, d, ⟨hinstaller, rfl⟩, (), d, ⟨hsize, rfl⟩, u, d, ⟨hverify, rfl⟩, (), d, ⟨hsha, rfl⟩,
      (), d.save (d.state.withPhase (.handedOff r)), ⟨rfl, rfl⟩, rfl, rfl⟩

/-- `handoff` gives the staged update on `d'` whenever it does on `d`. -/
def Serves (v : Verifier) (d d' : StoreDisk) : Prop :=
  ∀ keys version data, d.Usable v keys version data → d'.Usable v keys version data

theorem serves_of_files (hstate : d'.state = d.state)
    (hmanifest : ∀ r, d.state.staged = some r →
      d'.staged.get? (r.package.sha256, .manifest) = d.staged.get? (r.package.sha256, .manifest))
    (hinstaller : ∀ r installer, d.state.staged = some r →
      d.staged.get? (r.package.sha256, .installer) = some installer →
      ∃ installer', d'.staged.get? (r.package.sha256, .installer) = some installer' ∧
        installer'.size = installer.size ∧ v.sha256 installer' = v.sha256 installer) :
    Serves v d d' := by
  intro keys version data h
  obtain ⟨r, envelope, installer, u, hstaged, henvelope, hlimit, hget, hsize, hverify, hsha⟩ :=
    usable_iff.mp h
  obtain ⟨installer', hget', hsize', hsha'⟩ := hinstaller r installer hstaged hget
  apply usable_iff.mpr
  refine ⟨r, envelope, installer', u, ?_, ?_, hlimit, hget', hsize'.trans hsize, ?_, hsha⟩
  · rw [hstate]
    exact hstaged
  · rw [hmanifest r hstaged]
    exact henvelope
  · rw [hstate, verifyUpdate_congr hsize' hsha']
    exact hverify

theorem Serves.refl (d : StoreDisk) : Serves v d d := fun _ _ _ h => h

/-- The files of another digest change. -/
theorem Apart.serves {sha256 : Digest} (h : Apart sha256 d d')
    (hne : ∀ r, d.state.staged = some r → r.package.sha256 ≠ sha256) : Serves v d d' := by
  apply serves_of_files h.state
  · intro r hr
    exact h.files _ (hne r hr)
  · intro r installer hr hget
    exact ⟨installer, (h.files _ (hne r hr)).trans hget, rfl, rfl⟩

/-- The records are true, and the floor is not below the one of `d`. -/
structure Sound (v : Verifier) (d d' : StoreDisk) : Prop where
  truthful : d'.Truthful v
  floor : FloorLe d.state.securityFloor d'.state.securityFloor

theorem Truthful.sound (h : d.Truthful v) : Sound v d d := ⟨h, .refl _⟩

/-- A state is saved whose records have their files. -/
theorem sound_save {state : StoreState} (hfloor : FloorLe d.state.securityFloor state.securityFloor)
    (hnames : ∀ r, state.Names r → d'.Present v r) : Sound v d (d'.save state) :=
  ⟨hnames, hfloor⟩

theorem sound_withPhase {phase : Phase}
    (hnames : ∀ r, (d.state.withPhase phase).Names r → d'.Present v r) :
    Sound v d (d'.save (d.state.withPhase phase)) :=
  sound_save (.refl _) hnames

end StoreDisk

namespace Store
variable {d : StoreDisk} {fates : StoreFates}

abbrev Leaves {α : Type} (v : Verifier) (call : StoreCall α)
    (fates : StoreFates) (d : StoreDisk) : Prop :=
  Fated.Ensures call fates d (fun _ t => StoreDisk.Sound v d t)
    (fun _ t => StoreDisk.Sound v d t ∧ StoreDisk.Serves v d t) (StoreDisk.Sound v d)

theorem present_published {st : Staging} {source : ByteArray} (hd : d.Truthful v)
    (hsized : ∀ r, d.state.Names r → r.package.sha256 = st.sha256 →
      r.package.bytes = st.update.payload.package.bytes)
    (hsource : source.size = st.update.payload.package.bytes ∧ v.sha256 source = st.sha256) :
    (d.write (st.sha256, .installer) source).Truthful v := by
  intro r hr
  by_cases hsha : r.package.sha256 = st.sha256
  · have hpresent := hd r hr
    rw [← hsha] at hsource ⊢
    apply hpresent.write_installer
    · rw [hsource.1, hsized r hr hsha]
    · exact hsource.2
  · exact (StoreDisk.apart_write d (st.sha256, .installer) source).present hsha (hd r hr)

theorem truthful_manifest {sha256 : Digest} (hd : d.Truthful v) (envelope : ByteArray) :
    (d.write (sha256, .manifest) envelope).Truthful v := by
  intro r hr
  by_cases hsha : r.package.sha256 = sha256
  · subst hsha
    exact (hd r hr).write_manifest envelope
  · exact (StoreDisk.apart_write d (sha256, .manifest) envelope).present hsha (hd r hr)

theorem serves_installer {st : Staging} {source : ByteArray} (hd : d.Truthful v)
    (hsized : ∀ r, d.state.Names r → r.package.sha256 = st.sha256 →
      r.package.bytes = st.update.payload.package.bytes)
    (hsource : source.size = st.update.payload.package.bytes ∧ v.sha256 source = st.sha256) :
    StoreDisk.Serves v d (d.write (st.sha256, .installer) source) := by
  apply StoreDisk.serves_of_files
  · rfl
  · intro r _
    rw [StoreDisk.get?_write, if_neg (by simp)]
  · intro r installer hr hget
    by_cases hsha : r.package.sha256 = st.sha256
    · obtain ⟨⟨installer', hget', hsize, hsha'⟩, -⟩ := hd r (.inl hr)
      obtain rfl : installer' = installer := Option.some.inj (hget'.symm.trans hget)
      refine ⟨source, by rw [StoreDisk.get?_write, if_pos (by rw [hsha])], ?_, ?_⟩
      · rw [hsource.1, hsize, hsized r (.inl hr) hsha]
      · rw [hsource.2, hsha', hsha]
    · refine ⟨installer, ?_, rfl, rfl⟩
      rw [StoreDisk.get?_write, if_neg, hget]
      intro h
      exact hsha (congrArg Prod.fst h)

theorem ensures_save {t : StoreDisk} {state : StoreState} {Q : Unit → StoreDisk → Prop}
    {R : Raised → StoreDisk → Prop} {C : StoreDisk → Prop} (hQ : Q () (t.save state))
    (hR : fates .saveState ≠ .goes → ∀ e, R e t) (hC : fates .saveState ≠ .goes → C t) :
    Fated.Ensures (save state) fates t Q R C := by
  unfold save
  rw [Fated.ensures_effect]
  refine ⟨fun _ => hQ, ?_, ?_⟩
  · intro why hwhy
    exact hR (by simp [hwhy]) _
  · intro hstops
    exact hC (by simp [hstops])

/-- The end of `stage`: the record that is replaced goes, and the new one is saved. -/
theorem leaves_replace {st : Staging} {source : ByteArray} {t : StoreDisk} (hstate : t.state = d.state)
    (hd : t.Truthful v) (hserves : StoreDisk.Serves v d t ∨
      (replaced d.state st.sha256 = none ∧ fates .saveState = .goes))
    (hnew : t.Present v (stagedRecord st.update st.version))
    (hmay : d.MayStage v st source fates) :
    Fated.Ensures (removeAny (replaced d.state st.sha256) >>= fun _ =>
        save (d.state.withPhase (.staged (stagedRecord st.update st.version)))) fates t
      (fun _ t => StoreDisk.Sound v d t)
      (fun _ t => StoreDisk.Sound v d t ∧ StoreDisk.Serves v d t) (StoreDisk.Sound v d) := by
  have hsound : StoreDisk.Sound v d t := ⟨hd, hstate ▸ .refl _⟩
  rw [Fated.ensures_bind]
  cases hreplaced : replaced d.state st.sha256 with
  | none =>
    unfold removeAny
    rw [Fated.ensures_pure]
    apply ensures_save
    · apply StoreDisk.sound_withPhase
      rintro r (hr | hr)
      · cases hr
        exact hnew
      · exact hd r (.inr (hstate ▸ hr))
    · exact fun h _ => ⟨hsound, hserves.resolve_right fun hsave => h hsave.2⟩
    · exact fun _ => hsound
  | some r =>
    obtain ⟨hstaged, hne⟩ := Option.filter_eq_some_iff.mp hreplaced
    have hne : r.package.sha256 ≠ st.sha256 := of_decide_eq_true hne
    have hwhole := hmay.whole r hreplaced
    have hpresent := hd r (.inl (hstate ▸ hstaged))
    obtain ⟨⟨installer, hinstaller, -⟩, -⟩ := id hpresent
    unfold removeAny
    apply (ensures_remove_whole (r := r) (by rw [hinstaller]; rfl)
      fun h => (hwhole h).1).mono
    · -- the files are gone, so the state is saved
      rintro _ u ⟨hapart, hgoes⟩
      have hsave := (hwhole hgoes).2
      apply ensures_save
      · apply StoreDisk.sound_withPhase
        rintro q (hq | hq)
        · cases hq
          exact hapart.present (Ne.symm hne) hnew
        · apply hapart.present (hmay.keeps r hreplaced hgoes q hq)
          exact hd q (.inr (hstate ▸ hq))
      · exact fun h => absurd hsave h
      · exact fun h => absurd hsave h
    · rintro e u rfl
      refine ⟨hsound, hserves.resolve_right fun hsave => ?_⟩
      rw [hsave.1] at hreplaced
      contradiction
    · rintro u rfl
      exact hsound

/-- `stage` on a folder with true records. -/
theorem stage_leaves {st : Staging} {source : ByteArray} (hd : d.Truthful v)
    (hmay : d.MayStage v st source fates) :
    Leaves v (stage v st.floor st.update st.envelope source st.version) fates d := by
  have hsound := hd.sound
  have hserves := StoreDisk.Serves.refl (v := v) d
  unfold Leaves stage
  rw [Fated.ensures_bind]
  refine ensures_lockedState ?_ (fun _ => ⟨hsound, hserves⟩) hsound
  simp only [Fated.ensures_bind, Fated.ensures_require, Fated.ensures_effect, id_eq]
  refine ⟨fun _ => ⟨fun _ => ⟨fun hsource => ⟨fun _ => ?_, ?_⟩, ?_⟩, ?_⟩, ?_⟩
  · -- the installer is published
    have htruthful : (d.write (st.sha256, .installer) source).Truthful v :=
      present_published hd hmay.sized hsource
    have hserves₁ : StoreDisk.Serves v d (d.write (st.sha256, .installer) source) :=
      serves_installer hd hmay.sized hsource
    have hsound₁ : StoreDisk.Sound v d (d.write (st.sha256, .installer) source) :=
      ⟨htruthful, .refl _⟩
    refine ⟨fun hmanifest => ?_, fun _ _ => ⟨hsound₁, hserves₁⟩, fun _ => hsound₁⟩
    -- the manifest is published
    have hserves₂ : StoreDisk.Serves v d
        ((d.write (st.sha256, .installer) source).write (st.sha256, .manifest) st.envelope) ∨
        (replaced d.state st.sha256 = none ∧ fates .saveState = .goes) := by
      by_cases hsame : ∃ r, d.state.staged = some r ∧ r.package.sha256 = st.sha256
      · obtain ⟨r, hr, hsha⟩ := hsame
        rcases hmay.serves r hr hsha hmanifest with hsave | hserves
        · right
          refine ⟨?_, hsave⟩
          simp [replaced, hr, hsha]
        · exact .inl hserves
      · left
        have happart := (StoreDisk.apart_write d (st.sha256, .installer) source).trans
          (StoreDisk.apart_write _ (st.sha256, .manifest) st.envelope)
        exact happart.serves fun r hr hsha => hsame ⟨r, hr, hsha⟩
    have hnew : ((d.write (st.sha256, .installer) source).write (st.sha256, .manifest)
        st.envelope).Present v (stagedRecord st.update st.version) := by
      constructor
      · refine ⟨source, ?_, hsource.1, hsource.2⟩
        rw [StoreDisk.get?_write, if_neg (by simp), StoreDisk.get?_write]
        exact if_pos rfl
      · refine ⟨st.envelope, ?_⟩
        rw [StoreDisk.get?_write]
        exact if_pos rfl
    have hreplace := leaves_replace (d := d)
      (t := (d.write (st.sha256, .installer) source).write (st.sha256, .manifest) st.envelope) rfl
      (truthful_manifest htruthful st.envelope) hserves₂ hnew hmay
    exact Fated.ensures_bind.mp hreplace
  · exact ⟨fun _ _ => ⟨hsound, hserves⟩, fun _ => hsound⟩
  · exact fun _ => ⟨hsound, hserves⟩
  · exact ⟨fun _ _ => ⟨hsound, hserves⟩, fun _ => hsound⟩
  · exact fun _ => ⟨hsound, hserves⟩

/-- What `handoff` gives was verified against the floor and the running version. -/
def HandedWell (floor : Option VersionText) (u : VerifiedUpdate) (running : VersionText) : Prop :=
  FloorLe floor (some u.payload.version) ∧
    (u.payload.version.compare running < 0 → u.payload.rollback = true)

theorem handoff_leaves (hd : d.Truthful v) (keys : Keys) (version : VersionText)
    (data : InstalledData) :
    Fated.Ensures (handoff v keys version data) fates d
      (fun r t => StoreDisk.Sound v d t ∧ HandedWell d.state.securityFloor r.2 version)
      (fun _ t => StoreDisk.Sound v d t ∧ StoreDisk.Serves v d t) (StoreDisk.Sound v d) := by
  have hsound := hd.sound
  have hserves := StoreDisk.Serves.refl (v := v) d
  unfold handoff ownedExisting
  rw [Fated.ensures_bind]
  refine ensures_lockedState ?_ (fun _ => ⟨hsound, hserves⟩) hsound
  simp only [Fated.ensures_bind, Fated.ensures_require, Fated.ensures_effect, Fated.ensures_demand,
    Fated.ensures_look, Fated.ensures_ofExcept, Fated.ensures_pure, id_eq]
  have hraise : StoreDisk.Sound v d d ∧ StoreDisk.Serves v d d := ⟨hsound, hserves⟩
  refine ⟨fun r hr => ⟨fun envelope henvelope => ⟨fun _ => ⟨fun _ => ⟨fun installer hinstaller =>
    ⟨fun _ => ⟨fun u hu => ⟨fun _ => ?_, fun _ => hraise⟩, fun _ _ => hraise⟩, fun _ => hraise⟩,
    fun _ => hraise⟩, fun _ => hraise⟩, fun _ _ => hraise, fun _ => hsound⟩, fun _ => hraise⟩,
    fun _ => hraise⟩
  apply ensures_save
  · constructor
    · apply StoreDisk.sound_withPhase
      rintro q (hq | hq)
      · cases hq
        exact hd r (.inl hr)
      · exact hd q (.inr hq)
    · constructor
      · intro floor hfloor
        exact ⟨_, rfl, verifyUpdate_floor hu hfloor⟩
      · intro holder
        exact verifyUpdate_older hu holder
  · exact fun _ _ => hraise
  · exact fun _ => hsound

theorem confirm_leaves (hd : d.Truthful v) (hmay : d.MayConfirm fates) (version : VersionText)
    (evidence : Bool) : Leaves v (confirm version evidence) fates d := by
  have hsound := hd.sound
  have hraise : StoreDisk.Sound v d d ∧ StoreDisk.Serves v d d := ⟨hsound, .refl d⟩
  unfold Leaves confirm
  rw [Fated.ensures_bind]
  refine ensures_lockedState ?_ (fun _ => hraise) hsound
  cases hstaged : d.state.staged with
  | none => exact hsound
  | some staged =>
    simp only
    split
    · exact hsound
    split
    · exact hsound
    -- the update was applied
    have hpresent := hd staged (.inl hstaged)
    have hsave (t : StoreDisk) (ht : t.Present v staged) :
        StoreDisk.Sound v d (t.save (confirmed d.state staged)) := by
      apply StoreDisk.sound_save (floorLe_raisedFloor d.state.securityFloor staged)
      rintro r (hr | hr)
      · contradiction
      · cases hr
        exact ht
    unfold apply
    rw [Fated.ensures_bind]
    cases hprevious : d.state.previous.filter fun r => r.package.sha256 ≠ staged.package.sha256 with
    | none =>
      unfold removeAny
      rw [Fated.ensures_pure, Fated.ensures_bind]
      apply ensures_save
      · exact hsave d hpresent
      · exact fun _ _ => hraise
      · exact fun _ => hsound
    | some previous =>
      obtain ⟨hprevious, hne⟩ := Option.filter_eq_some_iff.mp hprevious
      have hne : previous.package.sha256 ≠ staged.package.sha256 := of_decide_eq_true hne
      have hwhole := hmay staged previous hstaged hprevious hne
      obtain ⟨⟨installer, hinstaller, -⟩, -⟩ := hd previous (.inr hprevious)
      unfold removeAny
      apply (ensures_remove_whole (r := previous) (by rw [hinstaller]; rfl)
        fun h => (hwhole h).1).mono
      · rintro _ t ⟨hapart, hgoes⟩
        have hgo := (hwhole hgoes).2
        rw [Fated.ensures_bind]
        apply ensures_save
        · exact hsave t (hapart.present (Ne.symm hne) hpresent)
        · exact fun h => absurd hgo h
        · exact fun h => absurd hgo h
      · rintro e t rfl
        exact hraise
      · rintro t rfl
        exact hsound

theorem discard_leaves (hd : d.Truthful v) (hmay : d.MayDiscard fates) :
    Leaves v discard fates d := by
  have hsound := hd.sound
  have hraise : StoreDisk.Sound v d d ∧ StoreDisk.Serves v d d := ⟨hsound, .refl d⟩
  have hsave (t : StoreDisk) (ht : ∀ r, d.state.previous = some r → t.Present v r) :
      StoreDisk.Sound v d (t.save (d.state.withPhase .idle)) := by
    apply StoreDisk.sound_withPhase
    rintro r (hr | hr)
    · contradiction
    · exact ht r hr
  unfold Leaves discard
  rw [Fated.ensures_bind]
  refine ensures_lockedState ?_ (fun _ => hraise) hsound
  rw [Fated.ensures_bind]
  cases hstaged : d.state.staged with
  | none =>
    unfold removeAny
    rw [Fated.ensures_pure]
    apply ensures_save
    · exact hsave d fun r hr => hd r (.inr hr)
    · exact fun _ _ => hraise
    · exact fun _ => hsound
  | some staged =>
    obtain ⟨hwhole, hkeeps⟩ := hmay staged hstaged
    obtain ⟨⟨installer, hinstaller, -⟩, -⟩ := hd staged (.inl hstaged)
    unfold removeAny
    apply (ensures_remove_whole (r := staged) (by rw [hinstaller]; rfl)
      fun h => (hwhole h).1).mono
    · rintro _ t ⟨hapart, hgoes⟩
      have hgo := (hwhole hgoes).2
      apply ensures_save
      · exact hsave t fun r hr => hapart.present (hkeeps hgoes r hr) (hd r (.inr hr))
      · exact fun h => absurd hgo h
      · exact fun h => absurd hgo h
    · rintro e t rfl
      exact hraise
    · rintro t rfl
      exact hsound

end Store

structure CallRecord.Good (v : Verifier) (c : CallRecord) : Prop where
  serves : c.raised = true → StoreDisk.Serves v c.before c.after
  floor : FloorLe c.before.state.securityFloor c.after.state.securityFloor
  handed : ∀ h, c.handed = some h → Store.HandedWell c.before.state.securityFloor h.1 h.2

namespace StoreSys

structure Inv (v : Verifier) (s : StoreSys) : Prop where
  truthful : s.disk.Truthful v
  calls : ∀ c ∈ s.calls, c.Good v
  /-- The floor is not below what any call has seen or left. -/
  floors : ∀ c ∈ s.calls, FloorLe c.before.state.securityFloor s.disk.state.securityFloor

/-- A call under the lock that leaves what it should. -/
theorem Inv.ended {s : StoreSys} (h : s.Inv v) {α : Type} {call : StoreCall α}
    {fates : StoreFates} {handed : α → Option (VerifiedUpdate × VersionText)}
    (hcall : Fated.Ensures call fates s.disk
      (fun a t => StoreDisk.Sound v s.disk t ∧
        ∀ u, handed a = some u → Store.HandedWell s.disk.state.securityFloor u.1 u.2)
      (fun _ t => StoreDisk.Sound v s.disk t ∧ StoreDisk.Serves v s.disk t)
      (StoreDisk.Sound v s.disk)) : (s.ended call fates handed).Inv v := by
  have hsound : StoreDisk.Sound v s.disk (call.run fates s.disk).2 := by
    apply Fated.Ensures.left
    apply hcall.mono
    · exact fun _ _ ht => ht.1
    · exact fun _ _ ht => ht.1
    · exact fun _ ht => ht
  have hgood : CallRecord.Good v ⟨s.disk, (call.run fates s.disk).2,
      hasRaised (call.run fates s.disk).1, (returned? (call.run fates s.disk).1).bind handed⟩ := by
    rcases hrun : call.run fates s.disk with ⟨ending, t⟩
    rw [hrun] at hsound
    constructor
    · cases ending with
      | raised e => exact fun _ => (hcall.raised hrun).2
      | returned a => simp [hasRaised]
      | stopped => simp [hasRaised]
    · exact hsound.floor
    · cases ending with
      | returned a => exact (hcall.returned hrun).2
      | raised e => simp [returned?]
      | stopped => simp [returned?]
  constructor
  · exact hsound.truthful
  · intro c hc
    rcases List.mem_cons.mp hc with rfl | hc
    · exact hgood
    · exact h.calls c hc
  · intro c hc
    rcases List.mem_cons.mp hc with rfl | hc
    · exact hsound.floor
    · exact (h.floors c hc).trans hsound.floor

theorem Inv.step {s s' : StoreSys} {move : StoreMove} (h : s.Inv v)
    (hok : s.Careful v move) (hs : s.step v move = some s') : s'.Inv v := by
  cases move with
  | verify process envelope package keys version data =>
    simp only [StoreSys.step] at hs
    split at hs
    · cases hs
      exact ⟨h.truthful, h.calls, h.floors⟩
    · cases hs
      constructor
      · exact h.truthful
      · intro c hc
        rcases List.mem_cons.mp hc with rfl | hc
        · exact ⟨fun _ => .refl _, .refl _, fun _ hu => by contradiction⟩
        · exact h.calls c hc
      · intro c hc
        rcases List.mem_cons.mp hc with rfl | hc
        · exact .refl _
        · exact h.floors c hc
  | stage process source fates =>
    obtain ⟨st, hst, rfl⟩ := Option.map_eq_some_iff.mp hs
    have hended : (s.ended (Store.stage v st.floor st.update st.envelope source st.version) fates
        fun _ => none).Inv v := h.ended
      ((Store.stage_leaves h.truthful (hok st hst)).mono
        (fun _ _ ht => ⟨ht, fun _ hu => by contradiction⟩) (fun _ _ ht => ht) (fun _ ht => ht))
    exact ⟨hended.truthful, hended.calls, hended.floors⟩
  | handoff keys version data fates =>
    cases hs
    apply h.ended
    apply (Store.handoff_leaves h.truthful keys version data).mono
    · rintro r t ⟨ht, hwell⟩
      refine ⟨ht, fun u hu => ?_⟩
      cases hu
      exact hwell
    · exact fun _ _ ht => ht
    · exact fun _ ht => ht
  | confirm version evidence fates =>
    cases hs
    apply h.ended
    apply (Store.confirm_leaves h.truthful hok version evidence).mono
    · exact fun _ _ ht => ⟨ht, fun _ hu => by contradiction⟩
    · exact fun _ _ ht => ht
    · exact fun _ ht => ht
  | discard fates =>
    cases hs
    apply h.ended
    apply (Store.discard_leaves h.truthful hok).mono
    · exact fun _ _ ht => ⟨ht, fun _ hu => by contradiction⟩
    · exact fun _ _ ht => ht
    · exact fun _ ht => ht

end StoreSys

/-- The records of the store are true in every state of a run whose calls are careful, and every
call left the staged update, the floor and the hand-off as it should. -/
theorem records_true {s : StoreSys} (h : (storeMachine v).Reach (StoreSys.Careful v) s) :
    s.disk.Truthful v ∧ (∀ c ∈ s.calls, c.Good v) ∧
      ∀ c ∈ s.calls, FloorLe c.before.state.securityFloor s.disk.state.securityFloor := by
  have hinv : s.Inv v := by
    apply h.invariant
    · rintro s ⟨htruthful, -, hcalls⟩
      exact ⟨htruthful, by simp [hcalls], by simp [hcalls]⟩
    · intro s move s' hinv hok hs
      exact hinv.step hok hs
  exact ⟨hinv.truthful, hinv.calls, hinv.floors⟩

/-! A package with the two bytes that a program starts with. -/

def sampleInstaller : ByteArray := ⟨#[77, 90]⟩

def sampleDigest : Digest :=
  ⟨py "9b8db510ef42b8ed54a3712636fda55a4f8cfcd5493e20b74ab00cd4f3979f2d", by decide +kernel⟩

def otherDigest : Digest :=
  ⟨py "4f53cda18c2baa0c0354bb5f9a3ecbe5ed12ab4d8e11ba873c2f11161202b945", by decide +kernel⟩

def sampleKeyId : KeyId := ⟨py "139e3940e64b5491722088d9a0d74162", by decide +kernel⟩

def samplePlatform : Platform where
  limits := ⟨1000, 4300⟩
  sha256 data := if data = sampleInstaller then sampleDigest else otherDigest
  b64decode _ := none
  verify _ _ _ := none

def sampleVerifier : Verifier := samplePlatform.verifier WholeFloat

def sampleVersion : VersionText := ⟨py "2.0.0", by decide +kernel⟩

def sampleRecord : Record where
  kind := .upgrade
  version := sampleVersion
  package := ⟨py "qronos-desktop_2.0.0_x64-setup.exe", 2, sampleDigest, by decide +kernel, by decide⟩
  keyId := sampleKeyId
  securityFloor := sampleVersion
  fromVersion := ⟨py "1.0.0", by decide +kernel⟩

/-- The package is staged. -/
def sampleDisk : StoreDisk where
  state := StoreState.initial.withPhase (.staged sampleRecord)
  staged := (Dict.empty.set (sampleDigest, .installer) sampleInstaller).set
    (sampleDigest, .manifest) ByteArray.empty

def sampleSys : StoreSys := ⟨sampleDisk, fun _ => none, []⟩

theorem sampleDisk_truthful : sampleDisk.Truthful sampleVerifier := by
  rintro r (hr | hr)
  · obtain rfl : sampleRecord = r := Option.some.inj hr
    constructor
    · refine ⟨sampleInstaller, ?_, rfl, by decide +kernel⟩
      unfold sampleDisk
      rw [Dict.get?_set, if_neg (by simp), Dict.get?_set]
      exact if_pos rfl
    · refine ⟨ByteArray.empty, ?_⟩
      unfold sampleDisk
      rw [Dict.get?_set]
      exact if_pos rfl
  · contradiction

theorem sampleSys_start : (storeMachine sampleVerifier).start sampleSys :=
  ⟨sampleDisk_truthful, fun _ => rfl, rfl⟩

/-- A staged package is discarded and nothing fails. -/
theorem records_true_discarded : ∃ s : StoreSys,
    (storeMachine sampleVerifier).Reach (StoreSys.Careful sampleVerifier) s ∧
    s.calls.length = 1 ∧ s.disk.Truthful sampleVerifier ∧
    (∀ c ∈ s.calls, c.Good sampleVerifier) := by
  have hcareful : sampleSys.Careful sampleVerifier (.discard Fated.smooth) := by
    intro r _
    exact ⟨fun _ => ⟨rfl, rfl⟩, fun _ q hq => by contradiction⟩
  have hreach := Machine.Reach.step (.start sampleSys_start) hcareful rfl
  have htrue := records_true hreach
  exact ⟨_, hreach, rfl, htrue.1, htrue.2.1⟩

def heldOpen : StoreFates := fun e => if e = .saveState then .fails .denied else .goes

/-- The call raises, and the state still names the record whose files are gone. -/
theorem discarded_but_recorded : ∃ s : StoreSys,
    (storeMachine sampleVerifier).Reachable s ∧ (∃ c ∈ s.calls, c.raised = true) ∧
    ¬ s.disk.Truthful sampleVerifier := by
  have hrun : ((storeMachine sampleVerifier).exec sampleSys [.discard heldOpen]).any
      fun s => s.calls.any (·.raised) && decide (s.disk.state.staged = some sampleRecord) &&
        (s.disk.staged.get? (sampleDigest, .installer)).isNone := by
    decide +kernel
  obtain ⟨s, hs, hleft⟩ := (Option.any_eq_true _ _).mp hrun
  simp only [Bool.and_eq_true, decide_eq_true_eq, Option.isNone_iff_eq_none] at hleft
  obtain ⟨⟨hraised, hstaged⟩, hnone⟩ := hleft
  refine ⟨s, Machine.reachable_exec sampleSys_start hs, List.any_eq_true.mp hraised, ?_⟩
  intro htruthful
  obtain ⟨⟨installer, hinstaller, -⟩, -⟩ := htruthful sampleRecord (.inl hstaged)
  have hget : s.disk.staged.get? (sampleDigest, .installer) = some installer := hinstaller
  rw [hnone] at hget
  contradiction

end QronosAgent.Update
