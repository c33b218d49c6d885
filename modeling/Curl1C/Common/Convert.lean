/-
  Curl1C.Common.Convert

  `ANSItoUTF8` and `UTF8toANSI` of Common.cpp.  The conversions between code
  pages are calls of the Win32 API and are parameters here: `win` gives, for a
  code page, the text without its terminator that `MultiByteToWideChar` and
  `WideCharToMultiByte` write into a buffer of the size they asked for.
-/

import Curl1C.Text

namespace Curl1C

/-- `CP_ACP` and `CP_UTF8`. -/
inductive CodePage where
  | acp | utf8
deriving DecidableEq

/-- The Win32 conversions on NUL-terminated text. -/
structure Win32 where
  multiByteToWideChar : CodePage → List Byte → List (BitVec 16)
  wideCharToMultiByte : CodePage → List (BitVec 16) → List Byte

variable (win : Win32)

/-- `ANSItoUTF8`. -/
def ansiToUtf8 (input : CStr) : CStr :=
  CStr.ofBuf (win.wideCharToMultiByte .utf8 (win.multiByteToWideChar .acp input.bytes))

/-- `UTF8toANSI`. -/
def utf8ToAnsi (input : CStr) : CStr :=
  CStr.ofBuf (win.wideCharToMultiByte .acp (win.multiByteToWideChar .utf8 input.bytes))

/-- The conversions on ASCII text, which has the same bytes in both code
    pages. -/
def Win32.ascii : Win32 where
  multiByteToWideChar _ s := s.map (BitVec.setWidth 16)
  wideCharToMultiByte _ s := s.map (BitVec.setWidth 8)

end Curl1C
