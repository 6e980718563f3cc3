import NetbookInstaller.Transition.Loops
import Mathlib.Data.Prod.Lex
import Mathlib.Data.List.TakeWhile
import Mathlib.Data.BitVec

/-! The versions of the mounted systems: how the installer packs them into numbers and which
volumes it offers. -/
namespace SystemInformation

open Transition

def KERNEL_VERSION (major minor bugfix : BitVec 32) : BitVec 32 :=
  major <<< 8 ||| minor <<< 4 ||| bugfix

def INT_MAX : ℕ := 2 ^ 31 - 1

/-- `scanInt:` of a scanner that skips all but decimal digits: a number and what is left, if there
are digits; a number that is too large is cut off. -/
def scanInt (scanner : List Char) : Option (ℕ × List Char) :=
  let rest := scanner.dropWhile fun c => !c.isDigit
  let digits := rest.takeWhile Char.isDigit
  if digits = [] then none
  else some (min INT_MAX (Nat.ofDigitChars 10 digits 0), rest.dropWhile Char.isDigit)

/-- The variable that `scanInt:` is given, which is 0 before. -/
def scanField (scanner : List Char) : ℕ × List Char := (scanInt scanner).getD (0, scanner)

def getKernelVersion : Option (List Char) → ℤ
  | none => 0
  | some versionString =>
    let (majorVersion, scanner) := scanField versionString
    let (minorVersion, scanner) := scanField scanner
    let (bugfixVersion, _) := scanField scanner
    (KERNEL_VERSION (.ofNat 32 majorVersion) (.ofNat 32 minorVersion)
      (.ofNat 32 bugfixVersion)).toInt

/-- A decimal number as it is written. -/
structure Decimal where
  digits : List Char
  nonempty : digits ≠ []
  isDigit : ∀ c ∈ digits, c.isDigit = true

def Decimal.value (d : Decimal) : ℕ := Nat.ofDigitChars 10 d.digits 0

def Decimal.ofNat (n : ℕ) : Decimal where
  digits := Nat.toDigits 10 n
  nonempty := Nat.toDigits_ne_nil
  isDigit _ hc := Nat.isDigit_of_mem_toDigits (by decide) (by decide) hc

@[simp] theorem Decimal.value_ofNat (n : ℕ) : (Decimal.ofNat n).value = n :=
  Nat.ofDigitChars_toDigits (by decide) (by decide)

/-- A product version, of which the bug fix number may be missing. -/
structure ProductVersion where
  major : Decimal
  minor : Decimal
  bugfix : Option Decimal

namespace ProductVersion

def text (v : ProductVersion) : List Char :=
  v.major.digits ++ '.' :: (v.minor.digits ++ v.bugfix.elim [] fun d => '.' :: d.digits)

def bugfixValue (v : ProductVersion) : ℕ := (v.bugfix.map Decimal.value).getD 0

/-- The components in their lexicographic order. -/
def components (v : ProductVersion) : ℕ ×ₗ ℕ ×ₗ ℕ :=
  toLex (v.major.value, toLex (v.minor.value, v.bugfixValue))

def number (v : ProductVersion) : ℤ := getKernelVersion (some v.text)

/-- Each component has a field of its own in the number. -/
structure Fits (v : ProductVersion) : Prop where
  major : v.major.value < 2 ^ 23
  minor : v.minor.value < 2 ^ 4
  bugfix : v.bugfixValue < 2 ^ 4

/-- The numbers are ordered as the versions are. -/
structure Ordered (v w : ProductVersion) : Prop where
  lt_iff : v.number < w.number ↔ v.components < w.components
  gt_iff : w.number < v.number ↔ w.components < v.components

end ProductVersion

section Scanning
variable (d : Decimal) {rest : List Char}

theorem takeWhile_digits (hrest : ∀ c ∈ rest.head?, c.isDigit = false) :
    (d.digits ++ rest).takeWhile Char.isDigit = d.digits ∧
      (d.digits ++ rest).dropWhile Char.isDigit = rest := by
  rw [List.takeWhile_append_of_pos d.isDigit, List.dropWhile_append_of_pos d.isDigit]
  cases rest with
  | nil => simp
  | cons c cs =>
    have hc := hrest c rfl
    simp [hc]

theorem scanInt_digits (hrest : ∀ c ∈ rest.head?, c.isDigit = false) :
    scanInt (d.digits ++ rest) = some (min INT_MAX d.value, rest) := by
  obtain ⟨htake, hdrop⟩ := takeWhile_digits d hrest
  have hstart : (d.digits ++ rest).dropWhile (fun c => !c.isDigit) = d.digits ++ rest := by
    obtain ⟨c, cs, hcons⟩ := List.exists_cons_of_ne_nil d.nonempty
    have hc := d.isDigit c (hcons ▸ List.mem_cons_self)
    rw [hcons, List.cons_append, List.dropWhile_cons_of_neg (by simp [hc])]
  simp [scanInt, hstart, htake, hdrop, d.nonempty, Decimal.value]

theorem scanInt_dot (scanner : List Char) : scanInt ('.' :: scanner) = scanInt scanner := by
  simp [scanInt, Char.isDigit]

end Scanning

namespace ProductVersion

theorem number_eq (v : ProductVersion) :
    v.number = (KERNEL_VERSION (.ofNat 32 (min INT_MAX v.major.value))
      (.ofNat 32 (min INT_MAX v.minor.value)) (.ofNat 32 (min INT_MAX v.bugfixValue))).toInt := by
  obtain ⟨major, minor, bugfix⟩ := v
  have hmajor : ∀ s, scanInt (major.digits ++ '.' :: s) = some (min INT_MAX major.value, '.' :: s) :=
    fun s => scanInt_digits major (by simp [Char.isDigit])
  rw [number, getKernelVersion, text, scanField, hmajor]
  cases bugfix with
  | none =>
    have hminor : scanInt (minor.digits ++ []) = _ := scanInt_digits minor (by simp)
    have hend : scanInt [] = none := rfl
    rw [List.append_nil] at hminor
    simp [scanField, scanInt_dot, hminor, hend, bugfixValue]
  | some bugfix =>
    have hminor : scanInt (minor.digits ++ '.' :: bugfix.digits) = _ :=
      scanInt_digits minor (by simp [Char.isDigit])
    have hbugfix : scanInt (bugfix.digits ++ []) = _ := scanInt_digits bugfix (by simp)
    rw [List.append_nil] at hbugfix
    simp [scanField, scanInt_dot, hminor, hbugfix, bugfixValue]

theorem kernelVersion_toInt {major minor bugfix : ℕ} (hmajor : major < 2 ^ 23)
    (hminor : minor < 2 ^ 4) (hbugfix : bugfix < 2 ^ 4) :
    (KERNEL_VERSION (.ofNat 32 major) (.ofNat 32 minor) (.ofNat 32 bugfix)).toInt =
      256 * major + 16 * minor + bugfix := by
  have hlow : minor <<< 4 + bugfix = minor <<< 4 ||| bugfix := Nat.shiftLeft_add_eq_or_of_lt hbugfix _
  have hfields : major <<< 8 + (minor <<< 4 + bugfix) = major <<< 8 ||| (minor <<< 4 ||| bugfix) := by
    rw [← hlow]
    refine Nat.shiftLeft_add_eq_or_of_lt ?_ _
    rw [Nat.shiftLeft_eq]
    omega
  have hnat : (KERNEL_VERSION (.ofNat 32 major) (.ofNat 32 minor) (.ofNat 32 bugfix)).toNat =
      major <<< 8 + (minor <<< 4 + bugfix) := by
    rw [hfields, ← Nat.or_assoc]
    simp only [KERNEL_VERSION, BitVec.toNat_or, BitVec.toNat_shiftLeft, BitVec.toNat_ofNat]
    simp only [Nat.shiftLeft_eq]
    congr 2 <;> omega
  rw [BitVec.toInt_eq_toNat_of_lt, hnat]
  · simp only [Nat.shiftLeft_eq]
    omega
  · rw [hnat]
    simp only [Nat.shiftLeft_eq]
    omega

theorem number_of_fits {v : ProductVersion} (h : v.Fits) :
    v.number = 256 * v.major.value + 16 * v.minor.value + v.bugfixValue := by
  obtain ⟨hmajor, hminor, hbugfix⟩ := h
  have hint : 2 ^ 23 < INT_MAX := by decide
  rw [number_eq, Nat.min_eq_right, Nat.min_eq_right, Nat.min_eq_right,
    kernelVersion_toInt hmajor hminor hbugfix]
  all_goals omega

theorem components_lt_iff {v w : ProductVersion} :
    v.components < w.components ↔ v.major.value < w.major.value ∨ v.major.value = w.major.value ∧
      (v.minor.value < w.minor.value ∨ v.minor.value = w.minor.value ∧
        v.bugfixValue < w.bugfixValue) := by
  simp [components, Prod.Lex.toLex_lt_toLex]

theorem number_lt_iff {v w : ProductVersion} (hv : v.Fits) (hw : w.Fits) :
    v.number < w.number ↔ v.components < w.components := by
  rw [number_of_fits hv, number_of_fits hw, components_lt_iff]
  obtain ⟨-, hminor, hbugfix⟩ := hv
  obtain ⟨-, hminor', hbugfix'⟩ := hw
  omega

theorem number_le_iff {v w : ProductVersion} (hv : v.Fits) (hw : w.Fits) :
    v.number ≤ w.number ↔ v.components ≤ w.components := by
  have hnot := not_congr (number_lt_iff hw hv)
  rwa [Int.not_lt, not_lt] at hnot

theorem Fits.ordered {v w : ProductVersion} (hv : v.Fits) (hw : w.Fits) : v.Ordered w :=
  ⟨number_lt_iff hv hw, number_lt_iff hw hv⟩

def ofComponents (major minor bugfix : ℕ) : ProductVersion where
  major := .ofNat major
  minor := .ofNat minor
  bugfix := some (.ofNat bugfix)

section OfComponents
variable {major minor bugfix : ℕ}

@[simp] theorem major_ofComponents : (ofComponents major minor bugfix).major.value = major :=
  Decimal.value_ofNat major

@[simp] theorem minor_ofComponents : (ofComponents major minor bugfix).minor.value = minor :=
  Decimal.value_ofNat minor

@[simp] theorem bugfixValue_ofComponents :
    (ofComponents major minor bugfix).bugfixValue = bugfix :=
  Decimal.value_ofNat bugfix

theorem fits_ofComponents_iff :
    (ofComponents major minor bugfix).Fits ↔ major < 2 ^ 23 ∧ minor < 2 ^ 4 ∧ bugfix < 2 ^ 4 := by
  constructor
  · rintro ⟨hmajor, hminor, hbugfix⟩
    simp only [major_ofComponents, minor_ofComponents, bugfixValue_ofComponents]
      at hmajor hminor hbugfix
    exact ⟨hmajor, hminor, hbugfix⟩
  · rintro ⟨hmajor, hminor, hbugfix⟩
    exact ⟨by simpa using hmajor, by simpa using hminor, by simpa using hbugfix⟩

end OfComponents

theorem number_lt (v : ProductVersion) : v.number < 2 ^ 31 := by
  rw [number_eq]
  exact BitVec.toInt_lt

/-- A version that does not fit is taken for another one, or for one before the first. -/
theorem exists_not_ordered {v : ProductVersion} (h : ¬ v.Fits) : ∃ w, w.Fits ∧ ¬ v.Ordered w := by
  by_cases hneg : v.number < 0
  · have hfirst : (ofComponents 0 0 0).Fits := fits_ofComponents_iff.mpr (by decide)
    refine ⟨ofComponents 0 0 0, hfirst, fun hordered => ?_⟩
    have hnumber : (ofComponents 0 0 0).number = 0 := by simp [number_of_fits hfirst]
    have hlt := components_lt_iff.mp (hordered.lt_iff.mp (hnumber ▸ hneg))
    simp at hlt
  · obtain ⟨n, hn⟩ := Int.eq_ofNat_of_zero_le (Int.not_lt.mp hneg)
    have hlt := number_lt v
    have hfits : (ofComponents (n / 256) (n / 16 % 16) (n % 16)).Fits :=
      fits_ofComponents_iff.mpr (by omega)
    refine ⟨_, hfits, fun hordered => h ?_⟩
    have hnumber : (ofComponents (n / 256) (n / 16 % 16) (n % 16)).number = n := by
      simp only [number_of_fits hfits, major_ofComponents, minor_ofComponents,
        bugfixValue_ofComponents]
      omega
    have hsame : v.components = (ofComponents (n / 256) (n / 16 % 16) (n % 16)).components := by
      refine le_antisymm (not_lt.mp fun hgt => ?_) (not_lt.mp fun hless => ?_)
      · exact absurd (hordered.gt_iff.mpr hgt) (by rw [hn, hnumber]; exact Int.lt_irrefl _)
      · exact absurd (hordered.lt_iff.mpr hless) (by rw [hn, hnumber]; exact Int.lt_irrefl _)
    simp only [components, EmbeddingLike.apply_eq_iff_eq, Prod.mk.injEq, major_ofComponents,
      minor_ofComponents, bugfixValue_ofComponents] at hsame
    exact ⟨by omega, by omega, by omega⟩

/-- A version is compared rightly with all that fit exactly if it fits. -/
theorem ordered_iff_fits {v : ProductVersion} : (∀ w, w.Fits → v.Ordered w) ↔ v.Fits := by
  constructor
  · intro h
    by_contra hfits
    obtain ⟨w, hw, hnot⟩ := exists_not_ordered hfits
    exact hnot (h w hw)
  · exact fun hv w hw => hv.ordered hw

end ProductVersion

/-- What the installer reads of the mounted volumes: the product version of the system, the mount
flags, and the flags left in the buffer that `statfs` does not fill. -/
structure Volumes where
  productVersion : List Char → Option (List Char)
  mountFlags : List Char → BitVec 32
  stale : List Char → BitVec 32

def MNT_RDONLY : BitVec 32 := 1

def IsASCII (name : List Char) : Prop := ∀ c ∈ name, c.toNat < 128

instance (name : List Char) : Decidable (IsASCII name) := inferInstanceAs (Decidable (∀ c ∈ name, _))

/-- The mount flags of `getFileSystemInformation:`. A path that is not ASCII has no C string. -/
def Volumes.flags (s : Volumes) (name : List Char) : BitVec 32 :=
  if IsASCII name then s.mountFlags name else s.stale name

/-- The loop of `installableVolumesWithKernel:`. -/
def Volumes.step (s : Volumes) (minVersions : ℤ) :
    ℕ × List (List Char) → Option (ℕ × List (List Char))
  | (i, volumes) =>
    match volumes[i]? with
    | none => none
    | some volume =>
      if getKernelVersion (s.productVersion volume) < minVersions then some (i, volumes.eraseIdx i)
      else if s.flags volume &&& MNT_RDONLY ≠ 0 then some (i, volumes.eraseIdx i)
      else some (i + 1, volumes)

def Volumes.Kept (s : Volumes) (minVersions : ℤ) (volume : List Char) : Prop :=
  minVersions ≤ getKernelVersion (s.productVersion volume) ∧ s.flags volume &&& MNT_RDONLY = 0

instance (s : Volumes) (minVersions : ℤ) : DecidablePred (s.Kept minVersions) :=
  fun _ => inferInstanceAs (Decidable (_ ∧ _))

/-- The list is filtered in place. -/
theorem Volumes.evaluates_step (s : Volumes) (minVersions : ℤ) (done rest : List (List Char)) :
    Evaluates (s.step minVersions) (done.length, done ++ rest)
      ((done ++ rest.filter (s.Kept minVersions ·)).length,
        done ++ rest.filter (s.Kept minVersions ·)) := by
  induction rest generalizing done with
  | nil =>
    rw [List.filter_nil, List.append_nil]
    refine .halt ?_
    simp [step]
  | cons volume rest ih =>
    have herase : (done ++ volume :: rest).eraseIdx done.length = done ++ rest := by
      rw [List.eraseIdx_append_of_length_le (Nat.le_refl _)]
      simp
    by_cases hkept : s.Kept minVersions volume
    · have hnext := ih (done ++ [volume])
      rw [List.filter_cons_of_pos (by simpa using hkept)]
      obtain ⟨hversion, hflags⟩ := hkept
      refine .next ?_ (by simpa using hnext)
      simp [step, hflags, not_lt.mpr hversion]
    · rw [List.filter_cons_of_neg (by simpa using hkept)]
      refine .next ?_ (ih done)
      simp only [step, List.getElem?_append_right (Nat.le_refl _), Nat.sub_self,
        List.getElem?_cons_zero, herase]
      split_ifs with hversion hflags
      · rfl
      · rfl
      · exact absurd ⟨not_lt.mp hversion, not_not.mp hflags⟩ hkept

namespace ProductVersion

/-- A volume without a version counts as 0.0.0. -/
def AtLeast (least : ProductVersion) : Option ProductVersion → Prop
  | none => least.components ≤ toLex (0, toLex (0, 0))
  | some v => least.components ≤ v.components

instance (least : ProductVersion) : DecidablePred least.AtLeast
  | none => inferInstanceAs (Decidable (least.components ≤ toLex (0, toLex (0, 0))))
  | some v => inferInstanceAs (Decidable (least.components ≤ v.components))

theorem atLeast_iff {least : ProductVersion} (hleast : least.Fits) {version : Option ProductVersion}
    (hversion : ∀ v ∈ version, v.Fits) :
    least.number ≤ getKernelVersion (version.map text) ↔ least.AtLeast version := by
  cases version with
  | none =>
    have hfirst : (ofComponents 0 0 0).Fits := fits_ofComponents_iff.mpr (by decide)
    have hnumber : (ofComponents 0 0 0).number = 0 := by simp [number_of_fits hfirst]
    have hle := number_le_iff hleast hfirst
    rw [hnumber] at hle
    have hzero : (ofComponents 0 0 0).components = toLex (0, toLex (0, 0)) := by
      simp [components]
    rw [Option.map_none, getKernelVersion, AtLeast, ← hzero, hle]
  | some v => exact number_le_iff hleast (hversion v rfl)

end ProductVersion

/-- A version is compared rightly with all versions that fit their fields exactly if it fits itself;
with such versions, the volumes offered are the writable ones that are at least at the minimum. -/
theorem versions_order_volumes :
    (∀ v : ProductVersion, (∀ w, w.Fits → v.Ordered w) ↔ v.Fits) ∧
      ∀ (s : Volumes) (version : List Char → Option ProductVersion) (least : ProductVersion)
        (volumes : List (List Char)),
        (∀ name, s.productVersion name = (version name).map ProductVersion.text) → least.Fits →
          (∀ name ∈ volumes, IsASCII name ∧ ∀ v ∈ version name, v.Fits) →
            ∃ i, Evaluates (s.step least.number) (0, volumes)
              (i, volumes.filter fun name =>
                s.mountFlags name &&& MNT_RDONLY = 0 ∧ least.AtLeast (version name)) := by
  refine ⟨fun v => ProductVersion.ordered_iff_fits, ?_⟩
  intro s version least volumes hproduct hleast hvolumes
  have hkept : volumes.filter (s.Kept least.number ·) = volumes.filter fun name =>
      s.mountFlags name &&& MNT_RDONLY = 0 ∧ least.AtLeast (version name) := by
    refine List.filter_congr fun name hname => ?_
    obtain ⟨hascii, hfits⟩ := hvolumes name hname
    rw [decide_eq_decide, Volumes.Kept, hproduct, ProductVersion.atLeast_iff hleast hfits,
      Volumes.flags, if_pos hascii, and_comm]
  have hrun := s.evaluates_step least.number [] volumes
  rw [hkept] at hrun
  exact ⟨_, hrun⟩

def leopard : ProductVersion := .ofComponents 10 5 8
def snowLeopard : ProductVersion := .ofComponents 10 6 0

/-- A start volume and a DVD with Snow Leopard, and one with Leopard. -/
def mounted : Volumes where
  productVersion name := (if name = ['L'] then some leopard else some snowLeopard).map
    ProductVersion.text
  mountFlags name := if name = ['D', 'V', 'D'] then MNT_RDONLY else 0
  stale _ := 0

theorem versions_order_mounted :
    leopard.Ordered snowLeopard ∧ ∃ i, Evaluates (mounted.step snowLeopard.number)
      (0, [['D', 'V', 'D'], ['L'], ['S']]) (i, [['S']]) := by
  obtain ⟨hordered, hvolumes⟩ := versions_order_volumes
  have hleopard : leopard.Fits := ProductVersion.fits_ofComponents_iff.mpr (by decide)
  have hsnow : snowLeopard.Fits := ProductVersion.fits_ofComponents_iff.mpr (by decide)
  refine ⟨(hordered leopard).mpr hleopard snowLeopard hsnow, ?_⟩
  have hfits : ∀ name ∈ [['D', 'V', 'D'], ['L'], ['S']], IsASCII name ∧
      ∀ v ∈ (if name = ['L'] then some leopard else some snowLeopard), v.Fits := by
    intro name hname
    refine ⟨?_, fun v hv => ?_⟩
    · simp only [List.mem_cons, List.not_mem_nil, or_false] at hname
      rcases hname with rfl | rfl | rfl <;> simp [IsASCII]
    · split_ifs at hv
      · obtain rfl := Option.some.inj hv
        exact hleopard
      · obtain rfl := Option.some.inj hv
        exact hsnow
  obtain ⟨i, hrun⟩ := hvolumes mounted
    (fun name => if name = ['L'] then some leopard else some snowLeopard) snowLeopard _
    (fun _ => rfl) hsnow hfits
  exact ⟨i, hrun⟩

/-- A bug fix number of five bits runs over into the minor one. -/
theorem bugfix16_is_minor7 :
    (ProductVersion.ofComponents 10 6 16).number = (ProductVersion.ofComponents 10 7 0).number ∧
      ¬ (ProductVersion.ofComponents 10 6 16).Ordered (.ofComponents 10 7 0) := by
  have hsame : (ProductVersion.ofComponents 10 6 16).number =
      (ProductVersion.ofComponents 10 7 0).number := by
    simp only [ProductVersion.number_eq, ProductVersion.major_ofComponents,
      ProductVersion.minor_ofComponents, ProductVersion.bugfixValue_ofComponents]
    decide
  refine ⟨hsame, fun hordered => ?_⟩
  have hless : (ProductVersion.ofComponents 10 6 16).components <
      (ProductVersion.ofComponents 10 7 0).components := by
    simp [ProductVersion.components_lt_iff]
  exact absurd (hordered.lt_iff.mpr hless) (hsame ▸ Int.lt_irrefl _)

end SystemInformation
