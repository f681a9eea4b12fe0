/-
The sizes and counts that `init` and `parse_arguments` accept.

An option's value is read as an `int` or an `unsigned long long` and then stored into a
variable of another type, and what is checked is the variable.  A negative number of threads
or files is a large unsigned one by then, a block size keeps its low 32 bits, and the size of
one file is never looked at.  `accepted_sizes_iff` says which values come through unchanged.
-/
import Sysbench.Model.Init
import Sysbench.Proofs.FileRequests
import Sysbench.Proofs.OptionsSizes

namespace Sysbench.FileIo

open Options

variable {files : Files} {strtod : Text → ℚ} {room : Init.Room}
  {qsort : (UInt32 → UInt32 → ℤ) → List UInt32 → List UInt32} {options rest : Registry}
  {config : Init.InitConfig} {o : FileOptions} {cfg : FileConfig}

/-! ### What is asked for -/

/-- The first value of an option -/
def valueGiven (options : Registry) (name : String) : Option Text :=
  (sbGetValueList options name.toList).bind List.head?

/-- The integer asked for; an option without a value asks for 0. -/
def intAsked (options : Registry) (name : String) : ℤ :=
  (valueGiven options name).elim 0 fun value => (strtol value).1

/-- The size asked for -/
def sizeAsked (options : Registry) (name : String) : ℕ :=
  (valueGiven options name).elim 0 sizeDenoted

theorem sbOptToInt_eq_some {values : List Text} (h : sbOptToInt values = some n) :
    n = values.head?.elim 0 (fun value => (strtol value).1) ∧ -2 ^ 31 ≤ n ∧ n < 2 ^ 31 := by
  cases values with
  | nil =>
    cases h
    exact ⟨rfl, by decide, by decide⟩
  | cons value values =>
    rcases hres : strtol value with ⟨res, endptr⟩
    simp only [sbOptToInt, hres] at h
    show n = (strtol value).1 ∧ _
    rw [hres]
    by_cases hbad : endptr ≠ [] ∨ res > 2 ^ 31 - 1 ∨ res < -2 ^ 31
    · rw [if_pos hbad] at h
      cases h
    · rw [if_neg hbad, Option.some.injEq] at h
      subst h
      refine ⟨rfl, ?_, ?_⟩ <;> omega

theorem sbGetValueInt_eq_some {name : String}
    (h : sbGetValueInt options name.toList = some n) :
    n = intAsked options name ∧ -2 ^ 31 ≤ n ∧ n < 2 ^ 31 := by
  unfold sbGetValueInt at h
  unfold intAsked valueGiven sbGetValueList
  cases hfind : findOption options name.toList with
  | none =>
    rw [hfind] at h
    cases h
    exact ⟨rfl, by decide, by decide⟩
  | some opt =>
    rw [hfind] at h
    exact sbOptToInt_eq_some h

theorem toNat_sbGetValueSize (options : Registry) (name : String) :
    (sbGetValueSize options name.toList).toNat = sizeAsked options name % 2 ^ 64 := by
  unfold sbGetValueSize sizeAsked valueGiven sbGetValueList
  cases findOption options name.toList with
  | none => rfl
  | some opt =>
    show (sbOptToSize opt.values).toNat = opt.values.head?.elim 0 sizeDenoted % 2 ^ 64
    cases opt.values with
    | nil => rfl
    | cons value values =>
      rw [sbOptToSize_eq]
      rfl

/-! ### What is stored -/

theorem toNat_uint32_ofInt (n : ℤ) : ((UInt32.ofInt n).toNat : ℤ) = n % 2 ^ 32 := by
  rw [UInt32.ofInt, UInt32.toNat_ofNat']
  omega

theorem intOption_eq_ok {name : String} (h : Init.intOption options name = .ok n) :
    sbGetValueInt options name.toList = some n := by
  unfold Init.intOption Rand.intOption at h
  split at h
  · cases h
  · rename_i m hm
    cases h
    exact hm

theorem init_stored (h : Init.init files strtod room qsort options = .ok (config, rest)) :
    (∃ n, sbGetValueInt options "threads".toList = some n ∧ config.threads = UInt32.ofInt n ∧
      UInt32.ofInt n ≠ 0) ∧ Init.getCheckpoints qsort rest = .ok config.checkpoints := by
  obtain ⟨n, hn, h⟩ := Runs.bind_eq_ok.mp h
  obtain ⟨initTimeout, -, h⟩ := Runs.bind_eq_ok.mp h
  obtain ⟨_, hcheck, h⟩ := Runs.bind_eq_ok.mp h
  obtain ⟨events, -, h⟩ := Runs.bind_eq_ok.mp h
  obtain ⟨warmupTime, -, h⟩ := Runs.bind_eq_ok.mp h
  obtain ⟨_, -, h⟩ := Runs.bind_eq_ok.mp h
  obtain ⟨maxTime, -, h⟩ := Runs.bind_eq_ok.mp h
  obtain ⟨limit, -, h⟩ := Runs.bind_eq_ok.mp h
  obtain ⟨stackSize, -, h⟩ := Runs.bind_eq_ok.mp h
  obtain ⟨rand, -, h⟩ := Runs.bind_eq_ok.mp h
  obtain ⟨txRate, -, h⟩ := Runs.bind_eq_ok.mp h
  obtain ⟨interval, -, h⟩ := Runs.bind_eq_ok.mp h
  obtain ⟨checkpoints, hcheckpoints, h⟩ := Runs.bind_eq_ok.mp h
  obtain ⟨_, -, h⟩ := Runs.bind_eq_ok.mp h
  cases h
  exact ⟨⟨n, intOption_eq_ok hn, rfl, Runs.not_of_check hcheck⟩, hcheckpoints⟩

theorem getFileOptions_eq_some (h : getFileOptions strtod options = some o) :
    sbGetValueInt options "file-num".toList = some o.fileNum ∧
      sbGetValueInt options "file-merged-requests".toList = some o.fileMergedRequests ∧
      o.fileTotalSize = sbGetValueSize options "file-total-size".toList ∧
      o.fileBlockSize = sbGetValueSize options "file-block-size".toList := by
  obtain ⟨fileNum, hnum, h⟩ := Option.bind_eq_some_iff.mp h
  obtain ⟨merged, hmerged, h⟩ := Option.bind_eq_some_iff.mp h
  obtain ⟨flags, -, h⟩ := Option.bind_eq_some_iff.mp h
  obtain ⟨freq, -, h⟩ := Option.bind_eq_some_iff.mp h
  obtain ⟨mode, -, h⟩ := Option.bind_eq_some_iff.mp h
  cases h
  exact ⟨hnum, hmerged, rfl, rfl⟩

/-! ### When the two agree -/

/-- A nonzero `int` survives the conversion to `unsigned` iff it is positive. -/
theorem emod_eq_self_iff (hlow : -2 ^ 31 ≤ n) (hhigh : n < 2 ^ 31)
    (hne : n % 2 ^ 32 ≠ 0) : n % 2 ^ 32 = n ↔ 1 ≤ n := by
  omega

/-- A positive number comes out of `bmod` unchanged iff it is below the half. -/
theorem bmod_eq_self_of_lt {x : ℤ} {k : ℕ} (hnonneg : 0 ≤ x) (hlt : x < 2 ^ k) :
    x.bmod (2 ^ (k + 1)) = x := by
  apply Int.bmod_eq_of_le_mul_two
  · have hpos := Int.natCast_nonneg (2 ^ (k + 1))
    omega
  · push_cast
    omega

/-- The block size and the request size, stored in an `int` each -/
theorem block_and_request_iff {b block request : ℕ} {m : ℤ} (hm : 0 ≤ m)
    (hblock : (block : ℤ) = ((b % 2 ^ 64 : ℕ) : ℤ).bmod (2 ^ 32))
    (hrequest : (request : ℤ) = requestSizeOf block m) :
    (block = b ∧ (request : ℤ) = b * max 1 m) ↔ (b : ℤ) * max 1 m < 2 ^ 31 := by
  have hblock_lt : (block : ℤ) < 2 ^ 31 := by
    rw [hblock]
    exact bmod_two_pow_lt _ 31
  have hrequest_lt := requestSizeOf_lt m hblock_lt
  rw [← hrequest] at hrequest_lt
  refine ⟨fun h => h.2 ▸ hrequest_lt, fun h => ?_⟩
  have hb_le : (b : ℤ) ≤ b * max 1 m := by
    have hmax : 1 ≤ max 1 m := le_max_left 1 m
    exact le_mul_of_one_le_right (Int.natCast_nonneg b) hmax
  have hb_lt : (b : ℤ) < 2 ^ 31 := lt_of_le_of_lt hb_le h
  have hsame : block = b := by
    have hmod : b % 2 ^ 64 = b := Nat.mod_eq_of_lt (by omega)
    rw [hmod, bmod_eq_self_of_lt (k := 31) (Int.natCast_nonneg b) hb_lt] at hblock
    exact_mod_cast hblock
  refine ⟨hsame, ?_⟩
  rw [hrequest, hsame]
  unfold requestSizeOf
  by_cases hzero : m > 0
  · rw [if_pos hzero]
    have hmax : max 1 m = m := max_eq_right (by omega)
    rw [hmax] at h ⊢
    exact bmod_eq_self_of_lt (k := 31) (mul_nonneg (Int.natCast_nonneg b) hm) h
  · rw [if_neg hzero, max_eq_left (by omega), mul_one]

/-- The size of one file.  A total size that wraps around loses more than one file holds. -/
theorem fileSize_iff {t total n : ℕ} (htotal : (total : ℤ) = ((t % 2 ^ 64 : ℕ) : ℤ).bmod (2 ^ 64))
    (hn : 0 < n) (hn_lt : n < 2 ^ 32) :
    (total / n = t / n ∧ 1 ≤ total / n) ↔ t < 2 ^ 63 ∧ n ≤ t := by
  have htotal_lt : (total : ℤ) < 2 ^ 63 := by
    rw [htotal]
    exact bmod_two_pow_lt _ 63
  have hmod : total = t % 2 ^ 64 := by
    have h := congrArg (· % ((2 ^ 64 : ℕ) : ℤ)) htotal
    simp only [Int.bmod_emod] at h
    omega
  constructor
  · rintro ⟨hquot, hone⟩
    -- Otherwise there is at least one more in the quotient by `n`.
    have hsmall : t < 2 ^ 64 := by
      by_contra hlarge
      have hle : total + n ≤ t := by omega
      have hdiv := Nat.div_le_div_right (c := n) hle
      rw [Nat.add_div_right _ hn] at hdiv
      omega
    rw [Nat.mod_eq_of_lt hsmall] at hmod
    subst hmod
    exact ⟨by omega, (Nat.one_le_div_iff hn).mp hone⟩
  · rintro ⟨hsmall, hle⟩
    rw [Nat.mod_eq_of_lt (by omega)] at hmod
    subst hmod
    exact ⟨rfl, (Nat.one_le_div_iff hn).mpr hle⟩

section Accepted

variable {memalign : ℕ → Bool} {g : Globals} {testOptions : Registry}

theorem threads_asked_iff (h : Init.init files strtod room qsort options = .ok (config, rest)) :
    (config.threads.toNat : ℤ) = intAsked options "threads" ↔ 1 ≤ intAsked options "threads" := by
  obtain ⟨⟨threads, hthreads, hconfig, hne⟩, -⟩ := init_stored h
  obtain ⟨heq, hlow, hhigh⟩ := sbGetValueInt_eq_some hthreads
  have hmod := toNat_uint32_ofInt threads
  rw [← hconfig] at hmod hne
  have hmod_ne : threads % 2 ^ 32 ≠ 0 := by
    rw [← hmod]
    intro hzero
    exact hne (UInt32.toNat_inj.mp (by exact_mod_cast hzero))
  rw [hmod, ← heq]
  exact emod_eq_self_iff hlow hhigh hmod_ne

variable (hget : getFileOptions strtod testOptions = some o)
  (hparse : parseArguments memalign g o = .ok cfg)
include hget hparse

theorem numFiles_asked_iff :
    (cfg.numFiles : ℤ) = intAsked testOptions "file-num" ↔
      1 ≤ intAsked testOptions "file-num" := by
  obtain ⟨heq, hlow, hhigh⟩ := sbGetValueInt_eq_some (getFileOptions_eq_some hget).1
  have hstored := parseArguments_stored hparse
  have hmod : (cfg.numFiles : ℤ) = o.fileNum % 2 ^ 32 := by
    rw [hstored.numFiles_eq, Int.toNat_of_nonneg (Int.emod_nonneg _ (by decide))]
  have hmod_ne : o.fileNum % 2 ^ 32 ≠ 0 := by
    rw [← hmod]
    exact_mod_cast hstored.numFiles_ne
  rw [hmod, ← heq]
  exact emod_eq_self_iff hlow hhigh hmod_ne

theorem request_asked_iff :
    (cfg.blockSize = sizeAsked testOptions "file-block-size" ∧
      (cfg.requestSize : ℤ) = sizeAsked testOptions "file-block-size"
        * max 1 (intAsked testOptions "file-merged-requests")) ↔
      (sizeAsked testOptions "file-block-size" : ℤ)
        * max 1 (intAsked testOptions "file-merged-requests") < 2 ^ 31 := by
  obtain ⟨-, hmerged, -, hblock⟩ := getFileOptions_eq_some hget
  obtain ⟨hmerged_eq, -, -⟩ := sbGetValueInt_eq_some hmerged
  have hstored := parseArguments_stored hparse
  have hblock_eq := hstored.blockSize_eq
  rw [hblock, toNat_sbGetValueSize] at hblock_eq
  rw [← hmerged_eq]
  exact block_and_request_iff hstored.merged_nonneg hblock_eq hstored.requestSize_eq

theorem fileSize_asked_iff :
    (cfg.fileSize = sizeAsked testOptions "file-total-size" / cfg.numFiles ∧ 1 ≤ cfg.fileSize) ↔
      sizeAsked testOptions "file-total-size" < 2 ^ 63 ∧
        cfg.numFiles ≤ sizeAsked testOptions "file-total-size" := by
  obtain ⟨-, -, htotal, -⟩ := getFileOptions_eq_some hget
  have hstored := parseArguments_stored hparse
  have hcfg := parseArguments_accepted hparse
  have htotal_eq := hstored.totalSize_eq
  rw [htotal, toNat_sbGetValueSize] at htotal_eq
  rw [hstored.fileSize_eq]
  exact fileSize_iff htotal_eq hcfg.numFiles_pos hcfg.numFiles_lt

end Accepted

/-- The variables are what was asked for: those of `init` from `options`, those of the test from
`testOptions`. -/
structure AsAsked (options testOptions : Registry) (config : Init.InitConfig)
    (cfg : FileConfig) : Prop where
  threads_eq : (config.threads.toNat : ℤ) = intAsked options "threads"
  threads_pos : 1 ≤ config.threads.toNat
  numFiles_eq : (cfg.numFiles : ℤ) = intAsked testOptions "file-num"
  numFiles_pos : 1 ≤ cfg.numFiles
  blockSize_eq : cfg.blockSize = sizeAsked testOptions "file-block-size"
  requestSize_eq : (cfg.requestSize : ℤ)
    = sizeAsked testOptions "file-block-size" * max 1 (intAsked testOptions "file-merged-requests")
  fileSize_eq : cfg.fileSize = sizeAsked testOptions "file-total-size" / cfg.numFiles
  fileSize_pos : 1 ≤ cfg.fileSize

/-- What is asked for is positive and fits into the variables, and there is a byte for every
file. -/
structure Fits (options testOptions : Registry) : Prop where
  threads_pos : 1 ≤ intAsked options "threads"
  numFiles_pos : 1 ≤ intAsked testOptions "file-num"
  requestSize_lt : (sizeAsked testOptions "file-block-size" : ℤ)
    * max 1 (intAsked testOptions "file-merged-requests") < 2 ^ 31
  totalSize_lt : sizeAsked testOptions "file-total-size" < 2 ^ 63
  numFiles_le : intAsked testOptions "file-num" ≤ sizeAsked testOptions "file-total-size"

/-- Of the options that are accepted, these are the ones that mean what they say. -/
theorem accepted_sizes_iff (files : Files) (strtod : Text → ℚ) (room : Init.Room)
    (qsort : (UInt32 → UInt32 → ℤ) → List UInt32 → List UInt32) (memalign : ℕ → Bool)
    (cmdname : String) (options rest testOptions : Registry) (config : Init.InitConfig)
    (o : FileOptions) (cfg : FileConfig)
    (hinit : Init.init files strtod room qsort options = .ok (config, rest))
    (hget : getFileOptions strtod testOptions = some o)
    (hparse : parseArguments memalign ⟨cmdname, config.threads.toNat, config.validate⟩ o
      = .ok cfg) :
    AsAsked options testOptions config cfg ↔ Fits options testOptions := by
  have hthreads_iff := threads_asked_iff hinit
  have hnum_iff := numFiles_asked_iff hget hparse
  have hrequest_iff := request_asked_iff hget hparse
  have hfile_iff := fileSize_asked_iff hget hparse
  constructor
  · intro h
    obtain ⟨htotal_lt, hle⟩ := hfile_iff.mp ⟨h.fileSize_eq, h.fileSize_pos⟩
    exact {
      threads_pos := hthreads_iff.mp h.threads_eq
      numFiles_pos := hnum_iff.mp h.numFiles_eq
      requestSize_lt := hrequest_iff.mp ⟨h.blockSize_eq, h.requestSize_eq⟩
      totalSize_lt := htotal_lt
      numFiles_le := by
        rw [← h.numFiles_eq]
        exact_mod_cast hle }
  · intro h
    have hthreads_same := hthreads_iff.mpr h.threads_pos
    have hnum_same := hnum_iff.mpr h.numFiles_pos
    have hle := h.numFiles_le
    rw [← hnum_same] at hle
    obtain ⟨hblock_same, hrequest_same⟩ := hrequest_iff.mpr h.requestSize_lt
    obtain ⟨hfile_same, hfile_pos⟩ := hfile_iff.mpr ⟨h.totalSize_lt, by exact_mod_cast hle⟩
    have hthreads_pos := h.threads_pos
    rw [← hthreads_same] at hthreads_pos
    exact {
      threads_eq := hthreads_same
      threads_pos := by exact_mod_cast hthreads_pos
      numFiles_eq := hnum_same
      numFiles_pos := (parseArguments_accepted hparse).numFiles_pos
      blockSize_eq := hblock_same
      requestSize_eq := hrequest_same
      fileSize_eq := hfile_same
      fileSize_pos := hfile_pos }

/-- `parse_arguments` reads nothing of `sb_globals` but the command's name, apart from allocating
a buffer of the same size for every thread. -/
theorem parseArguments_congr (memalign : ℕ → Bool) (cmdname : String) (threads threads' : ℕ)
    (validate validate' : Bool) (o : FileOptions) :
    parseArguments memalign ⟨cmdname, threads, validate⟩ o
      = parseArguments memalign ⟨cmdname, threads', validate'⟩ o :=
  rfl

/-- The options that `main` reads from a command line -/
def commandLine (args : List String) : Registry :=
  let registered := (sbRegisterArgSet (fun _ => none) [] Rand.randArgs).1
  ((processOptions (fun _ => none) registered fileioArgs (args.map String.toList)).toOption).getD []

/-- There is memory for everything. -/
def ample : Init.Room where
  threads := fun _ => true
  timers := fun _ => true

/-- A number in an option that is not an integer, as far as the defaults have one -/
def decimal (s : Text) : ℚ :=
  if s = "1.5".toList then 3 / 2 else 4 / 5

def tenKilobytes : Registry :=
  commandLine ["fileio", "--threads=4", "--file-num=3", "--file-total-size=10K",
    "--file-block-size=1K", "--file-merged-requests=2", "prepare"]

theorem ten_kilobytes_in_three_files :
    ∃ config rest o cfg,
      Init.init (fun _ => none) decimal ample (fun _ l => l) tenKilobytes = .ok (config, rest) ∧
      getFileOptions decimal tenKilobytes = some o ∧
      parseArguments (fun _ => true) ⟨"prepare", config.threads.toNat, config.validate⟩ o
        = .ok cfg ∧ AsAsked tenKilobytes tenKilobytes config cfg := by
  have hall : (Init.init (fun _ => none) decimal ample (fun _ l => l) tenKilobytes).isOk = true ∧
      ((getFileOptions decimal tenKilobytes).any fun o =>
        (parseArguments (fun _ => true) ⟨"prepare", 0, false⟩ o).isOk) = true ∧
      intAsked tenKilobytes "threads" = 4 ∧ intAsked tenKilobytes "file-num" = 3 ∧
      intAsked tenKilobytes "file-merged-requests" = 2 ∧
      sizeAsked tenKilobytes "file-block-size" = 1024 ∧
      sizeAsked tenKilobytes "file-total-size" = 10240 := by
    decide +kernel
  obtain ⟨hinit, hget, hthreads, hnum, hmerged, hblock, htotal⟩ := hall
  obtain ⟨⟨config, rest⟩, hinit⟩ := Runs.exists_ok hinit
  obtain ⟨o, hget, hparse⟩ := (Option.any_eq_true _ _).mp hget
  obtain ⟨cfg, hparse⟩ := Runs.exists_ok hparse
  rw [parseArguments_congr _ _ 0 config.threads.toNat false config.validate] at hparse
  refine ⟨config, rest, o, cfg, hinit, hget, hparse, ?_⟩
  apply (accepted_sizes_iff _ _ _ _ _ "prepare" _ _ _ _ _ _ hinit hget hparse).mpr
  exact {
    threads_pos := by rw [hthreads]; decide
    numFiles_pos := by rw [hnum]; decide
    requestSize_lt := by rw [hblock, hmerged]; decide
    totalSize_lt := by rw [htotal]; decide
    numFiles_le := by rw [hnum, htotal]; decide }

def negativeFiles : Registry :=
  commandLine ["fileio", "--file-num=-1", "--file-total-size=1K",
    "--file-block-size=4294967808", "prepare"]

/-- What is stored for it -/
def negativeConfig : FileConfig where
  numFiles := 4294967295
  totalSize := 1024
  fileSize := 0
  testMode := .read
  blockSize := 512
  requestSize := 512

/-- A negative number of files, a block size beyond 32 bits, and files without a byte -/
theorem negative_file_num_is_accepted :
    ∃ config rest o cfg,
      Init.init (fun _ => none) decimal ample (fun _ l => l) negativeFiles = .ok (config, rest) ∧
      getFileOptions decimal negativeFiles = some o ∧
      parseArguments (fun _ => true) ⟨"prepare", config.threads.toNat, config.validate⟩ o
        = .ok cfg ∧
      intAsked negativeFiles "file-num" = -1 ∧ cfg.numFiles = 4294967295 ∧
      sizeAsked negativeFiles "file-block-size" = 4294967808 ∧ cfg.blockSize = 512 ∧
      cfg.fileSize = 0 ∧ ¬AsAsked negativeFiles negativeFiles config cfg := by
  have hall : (Init.init (fun _ => none) decimal ample (fun _ l => l) negativeFiles).isOk = true ∧
      ((getFileOptions decimal negativeFiles).any fun o =>
        parseArguments (fun _ => true) ⟨"prepare", 0, false⟩ o = .ok negativeConfig) = true ∧
      intAsked negativeFiles "file-num" = -1 ∧
      sizeAsked negativeFiles "file-block-size" = 4294967808 := by
    decide +kernel
  obtain ⟨hinit, hget, hnum, hblock⟩ := hall
  obtain ⟨⟨config, rest⟩, hinit⟩ := Runs.exists_ok hinit
  obtain ⟨o, hget, hparse⟩ := (Option.any_eq_true _ _).mp hget
  rw [decide_eq_true_eq, parseArguments_congr _ _ 0 config.threads.toNat false config.validate]
    at hparse
  refine ⟨config, rest, o, negativeConfig, hinit, hget, hparse, hnum, rfl, hblock, rfl, rfl, ?_⟩
  exact fun h => nomatch h.fileSize_pos

end Sysbench.FileIo
