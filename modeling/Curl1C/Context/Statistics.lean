/-
  Curl1C.Context.Statistics

  `GetStatistics` of Context.cpp: counters of the last transfer as a table of
  numbers.

  libcurl gives some counters out as `long` and some as `curl_off_t`, both
  through a pointer.  `AddStatisticLine` reads all of them into the same
  uninitialised `curl_off_t` and puts it, cast to `long`, into the table.
  `long` has 32 bits, and the machine is little-endian.

  Main result: `statistics_exact_iff`.
-/

import Mathlib.Algebra.Ring.Int.Defs
import Curl1C.Text

namespace Curl1C

/-! ## Counters of libcurl -/

/-- The `CURLINFO_*` that `GetStatistics` asks for. -/
inductive CURLinfo where
  | TOTAL_TIME_T | NAMELOOKUP_TIME_T | CONNECT_TIME_T | PRETRANSFER_TIME_T | STARTTRANSFER_TIME_T
  | REDIRECT_TIME_T | REDIRECT_COUNT | SIZE_UPLOAD_T | SPEED_UPLOAD_T | SIZE_DOWNLOAD_T
  | SPEED_DOWNLOAD_T | HEADER_SIZE | REQUEST_SIZE | CONTENT_LENGTH_DOWNLOAD_T
  | CONTENT_LENGTH_UPLOAD_T
deriving DecidableEq

/-- What libcurl keeps of a transfer, as far as the table shows it.  The sizes
    of the content are there only if they are known. -/
structure TransferInfo where
  timespent : BitVec 64
  t_nslookup : BitVec 64
  t_connect : BitVec 64
  t_pretransfer : BitVec 64
  t_starttransfer : BitVec 64
  t_redirect : BitVec 64
  followlocation : BitVec 32
  uploaded : BitVec 64
  ulspeed : BitVec 64
  downloaded : BitVec 64
  dlspeed : BitVec 64
  header_size : BitVec 32
  request_size : BitVec 64
  size_dl : Option (BitVec 64)
  size_ul : Option (BitVec 64)

/-- A counter in the type libcurl gives it out. -/
inductive InfoValue where
  | long (v : BitVec 32)
  | offT (v : BitVec 64)

/-- `getinfo_long` and `getinfo_offt` of libcurl. -/
def TransferInfo.getinfo (data : TransferInfo) : CURLinfo → InfoValue
  | .TOTAL_TIME_T => .offT data.timespent
  | .NAMELOOKUP_TIME_T => .offT data.t_nslookup
  | .CONNECT_TIME_T => .offT data.t_connect
  | .PRETRANSFER_TIME_T => .offT data.t_pretransfer
  | .STARTTRANSFER_TIME_T => .offT data.t_starttransfer
  | .REDIRECT_TIME_T => .offT data.t_redirect
  | .REDIRECT_COUNT => .long data.followlocation
  | .SIZE_UPLOAD_T => .offT data.uploaded
  | .SPEED_UPLOAD_T => .offT data.ulspeed
  | .SIZE_DOWNLOAD_T => .offT data.downloaded
  | .SPEED_DOWNLOAD_T => .offT data.dlspeed
  | .HEADER_SIZE => .long data.header_size
  | .REQUEST_SIZE => .long (data.request_size.setWidth 32)
  | .CONTENT_LENGTH_DOWNLOAD_T => .offT (data.size_dl.getD (-1))
  | .CONTENT_LENGTH_UPLOAD_T => .offT (data.size_ul.getD (-1))

namespace InfoValue

/-- The number a counter stands for. -/
def toInt : InfoValue → Int
  | long v => v.toInt
  | offT v => v.toInt

/-- A 64-bit variable after libcurl has stored a counter at its address: a
    `long` is stored in the low half only. -/
def store (retcode : BitVec 64) : InfoValue → BitVec 64
  | long v => retcode.extractLsb' 32 32 ++ v
  | offT v => v

end InfoValue

/-! ## The table -/

/-- `CcURL::AddStatisticLine`: the row it adds.  `retcode` is what the local
    holds before it is read into. -/
def addStatisticLine (data : TransferInfo) (retcode : BitVec 64) (info : CURLinfo)
    (textinfo : CStr) : CStr × Int :=
  let retcode := (data.getinfo info).store retcode
  -- `static_cast<long>`
  (textinfo, (retcode.setWidth 32).toInt)

/-- The lines of `GetStatistics`. -/
def statisticLines : List (CURLinfo × CStr) :=
  [(.TOTAL_TIME_T, CStr.lit "TOTAL_TIME"), (.NAMELOOKUP_TIME_T, CStr.lit "NAMELOOKUP_TIME"),
    (.CONNECT_TIME_T, CStr.lit "CONNECT_TIME"),
    (.PRETRANSFER_TIME_T, CStr.lit "PRETRANSFER_TIME"),
    (.STARTTRANSFER_TIME_T, CStr.lit "STARTTRANSFER_TIME"),
    (.REDIRECT_TIME_T, CStr.lit "REDIRECT_TIME"), (.REDIRECT_COUNT, CStr.lit "REDIRECT_COUNT"),
    (.SIZE_UPLOAD_T, CStr.lit "SIZE_UPLOAD"), (.SPEED_UPLOAD_T, CStr.lit "SPEED_UPLOAD"),
    (.SIZE_DOWNLOAD_T, CStr.lit "SIZE_DOWNLOAD"), (.SPEED_DOWNLOAD_T, CStr.lit "SPEED_DOWNLOAD"),
    (.HEADER_SIZE, CStr.lit "HEADER_SIZE"), (.REQUEST_SIZE, CStr.lit "REQUEST_SIZE"),
    (.CONTENT_LENGTH_DOWNLOAD_T, CStr.lit "CONTENT_LENGTH_DOWNLOAD"),
    (.CONTENT_LENGTH_UPLOAD_T, CStr.lit "CONTENT_LENGTH_UPLOAD")]

/-- `CcURL::GetStatistics`: the rows of the table.  `locals` is what the local
    `retcode` holds at the start of each call. -/
def getStatistics (data : TransferInfo) (locals : CURLinfo → BitVec 64) : List (CStr × Int) :=
  statisticLines.map fun line => addStatisticLine data (locals line.1) line.1 line.2

/-- The table as it should be. -/
def exactStatistics (data : TransferInfo) : List (CStr × Int) :=
  statisticLines.map fun line => (line.2, (data.getinfo line.1).toInt)

/-! ## What the cast keeps -/

/-- The number is one of a 32-bit `long`. -/
def FitsLong (n : Int) : Prop := -2 ^ 31 ≤ n ∧ n < 2 ^ 31

/-- Casting a 64-bit number to `long` keeps it exactly if it fits. -/
theorem toInt_setWidth_eq_iff (v : BitVec 64) :
    (v.setWidth 32).toInt = v.toInt ↔ FitsLong v.toInt := by
  have hlt := v.isLt
  unfold FitsLong
  rw [BitVec.toInt_eq_toNat_cond, BitVec.toInt_eq_toNat_cond, BitVec.toNat_setWidth]
  split <;> split <;> omega

theorem fitsLong_toInt (v : BitVec 32) : FitsLong v.toInt := by
  have hlt := v.isLt
  unfold FitsLong
  rw [BitVec.toInt_eq_toNat_cond]
  split <;> omega

namespace InfoValue

/-- The cast sees nothing of what the local held before. -/
theorem setWidth_store (v : InfoValue) (retcode : BitVec 64) :
    (v.store retcode).setWidth 32 =
      match v with
      | long v => v
      | offT v => v.setWidth 32 := by
  cases v with
  | long v =>
      show (retcode.extractLsb' 32 32 ++ v).setWidth 32 = v
      rw [BitVec.setWidth_append, dif_pos (Nat.le_refl 32), BitVec.setWidth_eq]
  | offT v => rfl

/-- A counter comes out of the cast exactly if it fits. -/
theorem toInt_setWidth_store_iff (v : InfoValue) (retcode : BitVec 64) :
    ((v.store retcode).setWidth 32).toInt = v.toInt ↔ FitsLong v.toInt := by
  rw [setWidth_store]
  cases v with
  | long v => exact iff_of_true rfl (fitsLong_toInt v)
  | offT v => exact toInt_setWidth_eq_iff v

end InfoValue

/-- Every counter has a line. -/
theorem exists_statisticLine (info : CURLinfo) : ∃ line ∈ statisticLines, line.1 = info := by
  cases info <;> decide

/-- A line of the table shows its counter exactly if the counter fits into a
    `long`, and the table is exact if all of them do; the counters libcurl gives
    out as `long` always fit.  What the uninitialised local held does not
    matter. -/
theorem statistics_exact_iff (data : TransferInfo) :
    (∀ retcode info textinfo, addStatisticLine data retcode info textinfo =
        (textinfo, (data.getinfo info).toInt) ↔ FitsLong (data.getinfo info).toInt) ∧
    (∀ info v, data.getinfo info = .long v → FitsLong (data.getinfo info).toInt) ∧
    (∀ locals, getStatistics data locals = exactStatistics data ↔
      ∀ info, FitsLong (data.getinfo info).toInt) ∧
    ∀ locals locals', getStatistics data locals = getStatistics data locals' := by
  have hline : ∀ retcode info textinfo, addStatisticLine data retcode info textinfo =
      (textinfo, (data.getinfo info).toInt) ↔ FitsLong (data.getinfo info).toInt := by
    intro retcode info textinfo
    rw [← InfoValue.toInt_setWidth_store_iff _ retcode, addStatisticLine, Prod.mk.injEq,
      and_iff_right rfl]
  refine ⟨hline, ?_, ?_, ?_⟩
  · intro info v hv
    rw [hv]
    exact fitsLong_toInt v
  · intro locals
    unfold getStatistics exactStatistics
    rw [List.map_inj_left]
    constructor
    · intro hrows info
      obtain ⟨line, hmem, rfl⟩ := exists_statisticLine info
      exact (hline _ _ _).mp (hrows line hmem)
    · intro hfits line _
      exact (hline _ _ _).mpr (hfits line.1)
  · intro locals locals'
    unfold getStatistics
    apply List.map_congr_left
    intro line _
    simp only [addStatisticLine, InfoValue.setWidth_store]

/-- A transfer about which nothing is known but its download size. -/
def downloadOf (n : BitVec 64) : TransferInfo :=
  { timespent := 0, t_nslookup := 0, t_connect := 0, t_pretransfer := 0, t_starttransfer := 0,
    t_redirect := 0, followlocation := 0, uploaded := 0, ulspeed := 0, downloaded := n,
    dlspeed := 0, header_size := 0, request_size := 0, size_dl := none, size_ul := none }

theorem statistics_exact_small :
    getStatistics (downloadOf 5) (fun _ => -1) = exactStatistics (downloadOf 5) := by
  refine ((statistics_exact_iff (downloadOf 5)).2.2.1 fun _ => -1).mpr ?_
  intro info
  cases info <;> exact ⟨by decide, by decide⟩

/-- A download of 2 GiB is shown as a negative number, one of 4 GiB as none. -/
theorem statistics_truncated :
    ((downloadOf 0x80000000).getinfo .SIZE_DOWNLOAD_T).toInt = 2 ^ 31 ∧
    addStatisticLine (downloadOf 0x80000000) 0 .SIZE_DOWNLOAD_T (CStr.lit "SIZE_DOWNLOAD") =
      (CStr.lit "SIZE_DOWNLOAD", -2 ^ 31) ∧
    ((downloadOf 0x100000000).getinfo .SIZE_DOWNLOAD_T).toInt = 2 ^ 32 ∧
    addStatisticLine (downloadOf 0x100000000) 0 .SIZE_DOWNLOAD_T (CStr.lit "SIZE_DOWNLOAD") =
      (CStr.lit "SIZE_DOWNLOAD", 0) := by
  refine ⟨by decide, by decide, by decide, by decide⟩

end Curl1C
