import Mathlib.Logic.Relation
import QronosAgent.Update.Truthful

/-! The version policy of updates: precedence as semantic versioning defines it, what a verified
package has passed, and what any sequence of updates keeps. -/
namespace QronosAgent.Update
open Lib

/-! Semantic Versioning 2.0, the rules of precedence. -/

def fieldsPrecede {α : Type} (precede : α → α → Prop) : List α → List α → Prop
  | _, [] => False
  | [], _ :: _ => True
  | a :: as, b :: bs => precede a b ∨ a = b ∧ fieldsPrecede precede as bs

/-- Numbers by value and before words, words by their ASCII codes. -/
def identifierPrecedes (a b : Identifier) : Prop :=
  match ofLex a, ofLex b with
  | .inl m, .inl n => m < n
  | .inl _, .inr _ => True
  | .inr _, .inl _ => False
  | .inr s, .inr t => fieldsPrecede (fun c d : Char => c.toNat < d.toNat) s t

def preReleasePrecedes : Option (List Identifier) → Option (List Identifier) → Prop
  | some a, some b => fieldsPrecede identifierPrecedes a b
  | some _, none => True
  | none, _ => False

namespace Version

def major (v : Version) : ℕ := (ofLex v.core).1
def minor (v : Version) : ℕ := (ofLex (ofLex v.core).2).1
def patch (v : Version) : ℕ := (ofLex (ofLex v.core).2).2

def precedes (l r : Version) : Prop :=
  l.major < r.major ∨ l.major = r.major ∧
    (l.minor < r.minor ∨ l.minor = r.minor ∧
      (l.patch < r.patch ∨ l.patch = r.patch ∧ preReleasePrecedes l.pre r.pre))

end Version

def VersionText.release (v : VersionText) : PyStr := v.text.takeWhile (· ≠ .scalar '+')

structure PrecedenceOrder : Prop where
  total : ∀ l r : VersionText, l.compare r ≤ 0 ∨ r.compare l ≤ 0
  trans : ∀ a b c : VersionText, a.compare b ≤ 0 → b.compare c ≤ 0 → a.compare c ≤ 0
  precedence : ∀ l r : VersionText, (l.compare r < 0 ↔ l.version.precedes r.version) ∧
    (0 < l.compare r ↔ r.version.precedes l.version)
  build : ∀ l r : VersionText, l.release = r.release → l.compare r = 0

/-! What a verified package has passed. -/

def Format.Serves (format : Format) (kind : UpdateKind) (installed : ℤ) : Prop :=
  format.oldest ≤ installed ∧ installed ≤ format.newest ∧
    (kind = .upgrade → installed ≤ format.writes)

def Compatible (kind : UpdateKind) : PayloadData → InstalledData → Prop
  | .single format, .single schema => format.Serves kind schema
  | .stores stores epoch, .profile profile => epoch = profile.epoch ∧
      ∀ store ∈ profile.stores.items, ∃ format, stores.get? store.1 = some format ∧
        format.Serves kind store.2
  | _, _ => False

structure Permitted (p : Platform) (F : Type) [PyFloat F] (envelope : ByteArray)
    (package : Option ByteArray) (keys : Keys) (installed : InstalledState) (u : VerifiedUpdate) :
    Prop where
  signed : ∃ data id key signature, authenticate (F := F) p envelope keys = .ok (data, u.keyId) ∧
    readPayload (F := F) p data = .ok u.payload ∧ keys.get? id = some key ∧ key.keyId = u.keyId ∧
    key.revoked = false ∧ p.verify key.publicKey data signature = some true
  hashed : ∃ bytes, package = some bytes ∧ bytes.size = u.payload.package.bytes ∧
    p.sha256 bytes = u.payload.package.sha256
  ownFloor : 0 ≤ u.payload.version.compare u.payload.securityFloor
  recordedFloor : ∀ floor, installed.securityFloor = some floor → 0 ≤ u.payload.version.compare floor
  direction :
    u.kind = .upgrade ∧ 0 < u.payload.version.compare installed.version ∧
      (∀ minimum, u.payload.minimumVersion = some minimum →
        0 ≤ installed.version.compare minimum) ∨
    u.kind = .repair ∧ u.payload.version.compare installed.version = 0 ∨
    u.kind = .rollback ∧ u.payload.version.compare installed.version < 0 ∧
      u.payload.rollback = true
  data : Compatible u.kind u.payload.data installed.data

def InstalledData.format? : InstalledData → PyStr → Option ℤ
  | .single schema, _ => some schema
  | .profile data, id => data.stores.get? id

def PayloadData.writes? : PayloadData → PyStr → Option ℤ
  | .single format, _ => some format.writes
  | .stores formats _, id => (formats.get? id).map Format.writes

def KeepsFormats (i j : InstalledState) : Prop :=
  ∀ id n, i.data.format? id = some n → ∃ m, j.data.format? id = some m ∧ n ≤ m

/-- A verified update that is `allowed` is installed; the floor may be raised to anything. -/
def Installs (v : Verifier) (allowed : UpdateKind → InstalledState → InstalledState → Prop)
    (i j : InstalledState) : Prop :=
  ∃ envelope package keys u, verifyUpdate v envelope package keys i = .ok u ∧
    j.version = u.payload.version ∧ (∀ id, j.data.format? id = u.payload.data.writes? id) ∧
    allowed u.kind i j

def NoRollback (kind : UpdateKind) (_ _ : InstalledState) : Prop := kind ≠ .rollback

/-- No rollback, and a repair lowers no format. -/
def Forward (kind : UpdateKind) (i j : InstalledState) : Prop :=
  kind ≠ .rollback ∧ (kind = .repair → KeepsFormats i j)

theorem fieldsPrecede_iff {α : Type} [LinearOrder α] {precede : α → α → Prop}
    (h : ∀ a b, precede a b ↔ a < b) {as bs : List α} : fieldsPrecede precede as bs ↔ as < bs := by
  induction as generalizing bs with
  | nil => cases bs <;> simp [fieldsPrecede]
  | cons a as ih =>
    cases bs with
    | nil => simp [fieldsPrecede]
    | cons b bs => simp [fieldsPrecede, h, ih, List.cons_lt_cons_iff]

theorem identifierPrecedes_iff (a b : Identifier) : identifierPrecedes a b ↔ a < b := by
  have hword : ∀ c d : Char, c.toNat < d.toNat ↔ c < d := fun c d => Iff.rfl
  rcases a with m | s
  · rcases b with n | t
    · exact Sum.Lex.inl_lt_inl_iff.symm
    · simp only [identifierPrecedes]
      exact iff_of_true trivial (Sum.Lex.inl_lt_inr m t)
  · rcases b with n | t
    · exact iff_of_false id Sum.Lex.not_inr_lt_inl
    · exact (fieldsPrecede_iff hword).trans Sum.Lex.inr_lt_inr_iff.symm

theorem preReleasePrecedes_iff (a b : Option (List Identifier)) : preReleasePrecedes a b ↔
    a.elim (⊤ : WithTop (List Identifier)) (fun pre => (pre : WithTop (List Identifier))) <
      b.elim (⊤ : WithTop (List Identifier)) fun pre => (pre : WithTop (List Identifier)) := by
  cases a with
  | none => simp [preReleasePrecedes]
  | some a =>
    cases b with
    | none => simp [preReleasePrecedes]
    | some b =>
      simp only [preReleasePrecedes, Option.elim_some, WithTop.coe_lt_coe]
      exact fieldsPrecede_iff identifierPrecedes_iff

theorem Version.precedes_iff {l r : Version} : l.precedes r ↔ l.key < r.key := by
  obtain ⟨⟨lmajor, lminor, lpatch⟩, lpre⟩ := l
  obtain ⟨⟨rmajor, rminor, rpatch⟩, rpre⟩ := r
  rw [key, key, Prod.Lex.toLex_lt_toLex, ← preReleasePrecedes_iff]
  change _ ↔ toLex (lmajor, toLex (lminor, lpatch)) < toLex (rmajor, toLex (rminor, rpatch)) ∨
    toLex (lmajor, toLex (lminor, lpatch)) = toLex (rmajor, toLex (rminor, rpatch)) ∧ _
  simp only [Prod.Lex.toLex_lt_toLex, toLex_inj, Prod.mk.injEq]
  change lmajor < rmajor ∨ lmajor = rmajor ∧ (lminor < rminor ∨ lminor = rminor ∧
    (lpatch < rpatch ∨ lpatch = rpatch ∧ preReleasePrecedes lpre rpre)) ↔ _
  tauto

theorem cut_eq (c : Char) (s : List Char) : (cut c s).1 = s.takeWhile (· ≠ c) := by
  unfold cut
  split
  · rename_i h
    conv_lhs => rw [← List.takeWhile_append_dropWhile (p := (· ≠ c)) (l := s), h, List.append_nil]
  · rfl

/-- Build metadata is not looked at. -/
theorem readVersion_release {s : List Char} {v : Version} (h : readVersion s = some v) :
    readVersion (s.takeWhile (· ≠ '+')) = some v := by
  have hcut : cut '+' (s.takeWhile (· ≠ '+')) = ((cut '+' s).1, none) := by
    have hnone : (s.takeWhile (· ≠ '+')).dropWhile (· ≠ '+') = [] := by
      rw [List.dropWhile_eq_nil_iff]
      intro c hc
      exact List.mem_takeWhile_imp (p := (· ≠ '+')) hc
    rw [cut_eq]
    unfold cut
    rw [hnone]
  unfold readVersion at h ⊢
  rw [hcut]
  obtain ⟨_, -, h⟩ := Option.bind_eq_some_iff.mp h
  exact h

theorem VersionText.read_release (v : VersionText) :
    ∃ s, v.release = s.map .scalar ∧ readVersion s = some v.version := by
  obtain ⟨version, hv⟩ := Option.isSome_iff_exists.mp v.valid
  have hversion : v.version = version := by
    rw [VersionText.version, Option.get_of_eq_some _ hv]
  unfold parseVersion at hv
  split at hv
  · obtain ⟨s, hs, hread⟩ := Option.bind_eq_some_iff.mp hv
    refine ⟨s.takeWhile (· ≠ '+'), ?_, hversion ▸ readVersion_release hread⟩
    rw [VersionText.release, PyStr.scalars?_eq_some hs, List.takeWhile_map]
    congr 2
    funext c
    simp
  · contradiction

theorem version_of_release {l r : VersionText} (h : l.release = r.release) :
    l.version = r.version := by
  obtain ⟨s, hs, hl⟩ := l.read_release
  obtain ⟨t, ht, hr⟩ := r.read_release
  have hst : s = t := by
    apply List.map_injective_iff.mpr _ (hs.symm.trans (h.trans ht))
    intro c d hcd
    simpa using hcd
  rw [hst, hr] at hl
  exact (Option.some.inj hl).symm

theorem compare_nonpos {l r : VersionText} : l.compare r ≤ 0 ↔ l.version.key ≤ r.version.key := by
  rw [← not_lt, ← not_lt]
  exact not_congr Version.compare_pos

theorem precedenceOrder : PrecedenceOrder where
  total l r := by
    rw [compare_nonpos, compare_nonpos]
    exact le_total _ _
  trans a b c := by
    simp only [compare_nonpos]
    exact le_trans
  precedence l r := by
    rw [Version.precedes_iff, Version.precedes_iff]
    exact ⟨Version.compare_neg, Version.compare_pos⟩
  build l r h := by
    rw [VersionText.compare, version_of_release h, Version.compare]
    simp

theorem checkSignatures_ok {F : Type} [PyFloat F] {p : Platform} {keys : Keys} {data : ByteArray}
    {revoked : Bool} {entries : List (Json F)} {signer : KeyId}
    (h : checkSignatures p keys data revoked entries = .ok signer) :
    ∃ id key signature, keys.get? id = some key ∧ key.keyId = signer ∧ key.revoked = false ∧
      p.verify key.publicKey data signature = some true := by
  induction entries generalizing revoked with
  | nil => contradiction
  | cons entry entries ih =>
    obtain ⟨_, -, h⟩ := bind_eq_ok.mp h
    obtain ⟨id, -, h⟩ := bind_eq_ok.mp h
    obtain ⟨signature, -, h⟩ := bind_eq_ok.mp h
    split at h
    · exact ih h
    · rename_i key hkey
      obtain ⟨valid, hvalid, h⟩ := bind_eq_ok.mp h
      split_ifs at h with hnot hrevoked
      · exact ih h
      · exact ih h
      · refine ⟨id, key, signature, hkey, Except.ok.inj h, by simpa using hrevoked, ?_⟩
        cases hverify : p.verify key.publicKey data signature with
        | none =>
          rw [hverify] at hvalid
          contradiction
        | some answer =>
          rw [hverify] at hvalid
          cases hvalid
          simpa using hnot

theorem compatible_of_check {payload : Payload} {installed : InstalledData} {kind : UpdateKind}
    (h : checkCompatible payload installed kind = .ok ()) :
    Compatible kind payload.data installed := by
  unfold checkCompatible at h
  split at h
  · contradiction
  · rename_i format schema hdata
    obtain ⟨_, hwrites, h⟩ := bind_eq_ok.mp h
    have hreads := require_eq_ok.mp h
    rw [hdata]
    refine ⟨hreads.1, hreads.2, fun hk => ?_⟩
    by_contra hlow
    exact require_eq_ok.mp hwrites ⟨hk, not_le.mp hlow⟩
  · contradiction
  · rename_i formats epoch data hdata
    obtain ⟨_, hepoch, h⟩ := bind_eq_ok.mp h
    rw [hdata]
    refine ⟨require_eq_ok.mp hepoch, fun store hstore => ?_⟩
    obtain ⟨format, hformat, h⟩ := bind_eq_ok.mp (ok_of_forM h store hstore)
    obtain ⟨_, hreads, hwrites⟩ := bind_eq_ok.mp h
    refine ⟨format, ?_, (require_eq_ok.mp hreads).1, (require_eq_ok.mp hreads).2, fun hk => ?_⟩
    · cases hget : formats.get? store.1 with
      | none =>
        rw [hget] at hformat
        contradiction
      | some found =>
        rw [hget] at hformat
        exact congrArg some (Except.ok.inj hformat)
    · by_contra hlow
      exact require_eq_ok.mp hwrites ⟨hk, not_le.mp hlow⟩

theorem signed_of_authenticate {F : Type} [PyFloat F] {p : Platform} {envelope : ByteArray}
    {keys : Keys} {data : ByteArray} {signer : KeyId}
    (h : authenticate (F := F) p envelope keys = .ok (data, signer)) :
    ∃ id key signature, keys.get? id = some key ∧ key.keyId = signer ∧ key.revoked = false ∧
      p.verify key.publicKey data signature = some true := by
  unfold authenticate at h
  simp only [bind_eq_ok, pure, Except.pure, Except.ok.injEq, Prod.mk.injEq] at h
  obtain ⟨-, -, -, -, -, -, -, -, -, -, signatures, -, -, -, payload, -, -, -, signer', hcheck, rfl,
    rfl⟩ := h
  exact checkSignatures_ok hcheck

theorem direction_of_kind {payload : Payload} {installed : InstalledState} {kind : UpdateKind}
    (h : updateKind payload installed = .ok kind) :
    kind = .upgrade ∧ 0 < payload.version.compare installed.version ∧
      (∀ minimum, payload.minimumVersion = some minimum → 0 ≤ installed.version.compare minimum) ∨
    kind = .repair ∧ payload.version.compare installed.version = 0 ∨
    kind = .rollback ∧ payload.version.compare installed.version < 0 ∧ payload.rollback = true := by
  unfold updateKind at h
  simp only at h
  split at h
  · rename_i hnewer
    obtain ⟨_, hminimum, h⟩ := bind_eq_ok.mp h
    exact .inl ⟨(Except.ok.inj h).symm, hnewer, require_eq_ok.mp hminimum⟩
  · split at h
    · rename_i hsame
      exact .inr (.inl ⟨(Except.ok.inj h).symm, hsame⟩)
    · obtain ⟨_, hrollback, h⟩ := bind_eq_ok.mp h
      exact .inr (.inr ⟨(Except.ok.inj h).symm, by omega, require_eq_ok.mp hrollback⟩)

theorem verifyUpdate_ownFloor {payload : Payload} {installed : InstalledState}
    (h : 0 ≤ payload.version.compare (effectiveFloor payload installed)) :
    0 ≤ payload.version.compare payload.securityFloor := by
  unfold effectiveFloor at h
  split at h
  · split at h
    · rename_i hhigher
      exact VersionText.compare_nonneg_trans h hhigher.le
    · exact h
  · exact h

theorem permitted_of_verified {F : Type} [PyFloat F] {p : Platform} {envelope : ByteArray}
    {package : Option ByteArray} {keys : Keys} {installed : InstalledState} {u : VerifiedUpdate}
    (h : verifyUpdate (p.verifier F) envelope package keys installed = .ok u) :
    Permitted p F envelope package keys installed u := by
  obtain ⟨hread, hhash, hfloor, hkind, hdata⟩ := verifyUpdate_eq_ok.mp h
  constructor
  · obtain ⟨⟨data, signer⟩, hauthentic, hread⟩ := bind_eq_ok.mp hread
    obtain ⟨payload, hpayload, hread⟩ := bind_eq_ok.mp hread
    obtain ⟨rfl, rfl⟩ := Prod.mk.inj (Except.ok.inj hread)
    obtain ⟨id, key, signature, hkey⟩ := signed_of_authenticate hauthentic
    exact ⟨data, id, key, signature, hauthentic, hpayload, hkey⟩
  · obtain ⟨bytes, hbytes, hhash⟩ := bind_eq_ok.mp hhash
    obtain ⟨_, -, hhash⟩ := bind_eq_ok.mp hhash
    obtain ⟨hsize, hdigest⟩ := Prod.mk.inj (Except.ok.inj hhash)
    cases package with
    | none => contradiction
    | some found => exact ⟨bytes, congrArg some (Except.ok.inj hbytes), hsize, hdigest⟩
  · exact verifyUpdate_ownFloor hfloor
  · intro floor
    exact verifyUpdate_floor h
  · exact direction_of_kind hkind
  · exact compatible_of_check hdata

theorem KeepsFormats.trans {i j k : InstalledState} (hij : KeepsFormats i j)
    (hjk : KeepsFormats j k) : KeepsFormats i k := by
  intro id n hn
  obtain ⟨m, hm, hle⟩ := hij id n hn
  obtain ⟨m', hm', hle'⟩ := hjk id m hm
  exact ⟨m', hm', hle.trans hle'⟩

theorem upgrade_keeps {i j : InstalledState} {payload : PayloadData}
    (hc : Compatible .upgrade payload i.data)
    (hdata : ∀ id, j.data.format? id = payload.writes? id) : KeepsFormats i j := by
  intro id n hn
  rw [hdata]
  cases payload with
  | single format =>
    cases hi : i.data with
    | single schema =>
      rw [hi] at hc hn
      cases hn
      exact ⟨format.writes, rfl, hc.2.2 rfl⟩
    | profile data =>
      rw [hi] at hc
      exact hc.elim
  | stores formats epoch =>
    cases hi : i.data with
    | single schema =>
      rw [hi] at hc
      exact hc.elim
    | profile data =>
      rw [hi] at hc hn
      obtain ⟨format, hformat, hserves⟩ := hc.2 (id, n) (Dict.get?_eq_some.mp hn)
      exact ⟨format.writes, by rw [PayloadData.writes?, hformat]; rfl, hserves.2.2 rfl⟩

theorem step_not_older {v : Verifier} {i j : InstalledState} (h : Installs v NoRollback i j) :
    0 ≤ j.version.compare i.version := by
  obtain ⟨envelope, package, keys, u, hu, hversion, -, hkind⟩ := h
  rw [hversion]
  rcases direction_of_kind (verifyUpdate_eq_ok.mp hu).2.2.2.1 with h | h | h
  · exact h.2.1.le
  · exact h.2.ge
  · exact absurd h.1 hkind

theorem step_keeps {v : Verifier} {i j : InstalledState} (h : Installs v Forward i j) :
    KeepsFormats i j := by
  obtain ⟨envelope, package, keys, u, hu, -, hdata, hkind, hrepair⟩ := h
  have hc := compatible_of_check (verifyUpdate_eq_ok.mp hu).2.2.2.2
  cases hk : u.kind with
  | upgrade =>
    rw [hk] at hc
    exact upgrade_keeps hc hdata
  | repair => exact hrepair hk
  | rollback => exact absurd hk hkind

/-- Precedence, what is verified, and what updates keep that are not rollbacks. -/
theorem version_policy (p : Platform) (F : Type) [PyFloat F] :
    PrecedenceOrder ∧
    (∀ envelope package keys installed u,
      verifyUpdate (p.verifier F) envelope package keys installed = .ok u →
        Permitted p F envelope package keys installed u) ∧
    ∀ i j, (Relation.ReflTransGen (Installs (p.verifier F) NoRollback) i j →
        0 ≤ j.version.compare i.version) ∧
      (Relation.ReflTransGen (Installs (p.verifier F) Forward) i j → KeepsFormats i j) := by
  refine ⟨precedenceOrder, fun _ _ _ _ _ => permitted_of_verified, fun i j => ⟨?_, ?_⟩⟩
  · intro h
    induction h with
    | refl => exact (VersionText.compare_self i.version).ge
    | tail _ hstep ih => exact VersionText.compare_nonneg_trans (step_not_older hstep) ih
  · intro h
    induction h with
    | refl => exact fun id n hn => ⟨n, hn, le_rfl⟩
    | tail _ hstep ih => exact ih.trans (step_keeps hstep)

/-! A repair whose package writes an older format of a store than the installed one. -/

def sampleData (format : ℤ) : InstalledState :=
  ⟨sampleVersion, .profile ⟨Dict.empty.set (py "memory") format, 1⟩, none⟩

def sampleRepair : Payload where
  version := sampleVersion
  securityFloor := sampleVersion
  minimumVersion := none
  rollback := false
  notes := []
  package := sampleRecord.package
  data := .stores (Dict.empty.set (py "memory") ⟨1, 1, 2, by decide⟩) 1

def authentic : Verifier := ⟨fun _ => sampleDigest, fun _ _ => .ok (sampleRepair, sampleKeyId)⟩

theorem sampleRepair_verified : verifyUpdate authentic ByteArray.empty (some sampleInstaller) .empty
    (sampleData 2) = .ok ⟨.repair, sampleKeyId, sampleRepair⟩ := by
  have hself : sampleRepair.version.compare (sampleData 2).version = 0 :=
    VersionText.compare_self sampleVersion
  rw [verifyUpdate_eq_ok]
  refine ⟨rfl, rfl, (VersionText.compare_self sampleVersion).ge, ?_, rfl⟩
  unfold updateKind
  simp only [hself]
  rfl

theorem repair_lowers_format : ∃ i j,
    Relation.ReflTransGen (Installs authentic NoRollback) i j ∧ ¬KeepsFormats i j := by
  refine ⟨sampleData 2, sampleData 1, .single ⟨_, _, _, _, sampleRepair_verified, rfl, ?_, ?_⟩, ?_⟩
  · intro id
    change (Dict.empty.set _ _).get? id = ((Dict.empty.set _ _).get? id).map Format.writes
    rw [Dict.get?_set, Dict.get?_set]
    split <;> rfl
  · exact fun h => by contradiction
  · intro h
    obtain ⟨m, hm, hle⟩ := h (py "memory") 2 Dict.get?_set_self
    cases hm.symm.trans Dict.get?_set_self
    omega

end QronosAgent.Update
