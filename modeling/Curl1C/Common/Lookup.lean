/-
  Curl1C.Common.Lookup

  The option names a script may use (`lookuptable` of Common.h) and the search
  over them (`curl_options_from_string` of Common.cpp).

  `NKEYS` counts every row of the table, the terminator `{NULL, ...}`
  included, and the loop compares the key of each row it visits with `strcmp`.
  A name that no row has is therefore compared with the NULL key before the
  loop can end.
-/

import Mathlib.Data.List.Lex
import Mathlib.Order.Basic
import Curl1C.Text
import Curl1C.Curl.Option

namespace Curl1C

/-- `lookuptable`: row keys, `none` being NULL, and their option ids. -/
def lookuptable : List (Option String × CURLoption) :=
  [ (some "ABSTRACT_UNIX_SOCKET", .ABSTRACT_UNIX_SOCKET),
    (some "ACCEPTTIMEOUT_MS", .ACCEPTTIMEOUT_MS), (some "ACCEPT_ENCODING", .ACCEPT_ENCODING),
    (some "ADDRESS_SCOPE", .ADDRESS_SCOPE), (some "ALTSVC", .ALTSVC),
    (some "ALTSVC_CTRL", .ALTSVC_CTRL), (some "APPEND", .APPEND),
    (some "AUTOREFERER", .AUTOREFERER), (some "AWS_SIGV4", .AWS_SIGV4),
    (some "BUFFERSIZE", .BUFFERSIZE), (some "CAINFO", .CAINFO), (some "CAINFO_BLOB", .CAINFO_BLOB),
    (some "CAPATH", .CAPATH), (some "CA_CACHE_TIMEOUT", .CA_CACHE_TIMEOUT),
    (some "CERTINFO", .CERTINFO), (some "CHUNK_BGN_FUNCTION", .CHUNK_BGN_FUNCTION),
    (some "CHUNK_DATA", .CHUNK_DATA), (some "CHUNK_END_FUNCTION", .CHUNK_END_FUNCTION),
    (some "CLOSESOCKETDATA", .CLOSESOCKETDATA), (some "CLOSESOCKETFUNCTION", .CLOSESOCKETFUNCTION),
    (some "CONNECTTIMEOUT", .CONNECTTIMEOUT), (some "CONNECTTIMEOUT_MS", .CONNECTTIMEOUT_MS),
    (some "CONNECT_ONLY", .CONNECT_ONLY), (some "CONNECT_TO", .CONNECT_TO),
    (some "CONV_FROM_NETWORK_FUNCTION", .CONV_FROM_NETWORK_FUNCTION),
    (some "CONV_FROM_UTF8_FUNCTION", .CONV_FROM_UTF8_FUNCTION),
    (some "CONV_TO_NETWORK_FUNCTION", .CONV_TO_NETWORK_FUNCTION), (some "COOKIE", .COOKIE),
    (some "COOKIEFILE", .COOKIEFILE), (some "COOKIEJAR", .COOKIEJAR),
    (some "COOKIELIST", .COOKIELIST), (some "COOKIESESSION", .COOKIESESSION),
    (some "COPYPOSTFIELDS", .COPYPOSTFIELDS), (some "CRLF", .CRLF), (some "CRLFILE", .CRLFILE),
    (some "CURLU", .CURLU), (some "CUSTOMREQUEST", .CUSTOMREQUEST), (some "DEBUGDATA", .DEBUGDATA),
    (some "DEBUGFUNCTION", .DEBUGFUNCTION), (some "DEFAULT_PROTOCOL", .DEFAULT_PROTOCOL),
    (some "DIRLISTONLY", .DIRLISTONLY),
    (some "DISALLOW_USERNAME_IN_URL", .DISALLOW_USERNAME_IN_URL),
    (some "DNS_CACHE_TIMEOUT", .DNS_CACHE_TIMEOUT), (some "DNS_INTERFACE", .DNS_INTERFACE),
    (some "DNS_LOCAL_IP4", .DNS_LOCAL_IP4), (some "DNS_LOCAL_IP6", .DNS_LOCAL_IP6),
    (some "DNS_SERVERS", .DNS_SERVERS), (some "DNS_SHUFFLE_ADDRESSES", .DNS_SHUFFLE_ADDRESSES),
    (some "DNS_USE_GLOBAL_CACHE", .DNS_USE_GLOBAL_CACHE),
    (some "DOH_SSL_VERIFYHOST", .DOH_SSL_VERIFYHOST),
    (some "DOH_SSL_VERIFYPEER", .DOH_SSL_VERIFYPEER),
    (some "DOH_SSL_VERIFYSTATUS", .DOH_SSL_VERIFYSTATUS), (some "DOH_URL", .DOH_URL),
    (some "EGDSOCKET", .EGDSOCKET), (some "ENCODING", .ACCEPT_ENCODING),
    (some "ERRORBUFFER", .ERRORBUFFER), (some "EXPECT_100_TIMEOUT_MS", .EXPECT_100_TIMEOUT_MS),
    (some "FAILONERROR", .FAILONERROR), (some "FILE", .WRITEDATA), (some "FILETIME", .FILETIME),
    (some "FNMATCH_DATA", .FNMATCH_DATA), (some "FNMATCH_FUNCTION", .FNMATCH_FUNCTION),
    (some "FOLLOWLOCATION", .FOLLOWLOCATION), (some "FORBID_REUSE", .FORBID_REUSE),
    (some "FRESH_CONNECT", .FRESH_CONNECT), (some "FTPAPPEND", .APPEND),
    (some "FTPLISTONLY", .DIRLISTONLY), (some "FTPPORT", .FTPPORT),
    (some "FTPSSLAUTH", .FTPSSLAUTH), (some "FTP_ACCOUNT", .FTP_ACCOUNT),
    (some "FTP_ALTERNATIVE_TO_USER", .FTP_ALTERNATIVE_TO_USER),
    (some "FTP_CREATE_MISSING_DIRS", .FTP_CREATE_MISSING_DIRS),
    (some "FTP_FILEMETHOD", .FTP_FILEMETHOD),
    (some "FTP_RESPONSE_TIMEOUT", .SERVER_RESPONSE_TIMEOUT),
    (some "FTP_SKIP_PASV_IP", .FTP_SKIP_PASV_IP), (some "FTP_SSL", .USE_SSL),
    (some "FTP_SSL_CCC", .FTP_SSL_CCC), (some "FTP_USE_EPRT", .FTP_USE_EPRT),
    (some "FTP_USE_EPSV", .FTP_USE_EPSV), (some "FTP_USE_PRET", .FTP_USE_PRET),
    (some "GSSAPI_DELEGATION", .GSSAPI_DELEGATION),
    (some "HAPPY_EYEBALLS_TIMEOUT_MS", .HAPPY_EYEBALLS_TIMEOUT_MS),
    (some "HAPROXYPROTOCOL", .HAPROXYPROTOCOL), (some "HAPROXY_CLIENT_IP", .HAPROXY_CLIENT_IP),
    (some "HEADER", .HEADER), (some "HEADERDATA", .HEADERDATA),
    (some "HEADERFUNCTION", .HEADERFUNCTION), (some "HEADEROPT", .HEADEROPT), (some "HSTS", .HSTS),
    (some "HSTSREADDATA", .HSTSREADDATA), (some "HSTSREADFUNCTION", .HSTSREADFUNCTION),
    (some "HSTSWRITEDATA", .HSTSWRITEDATA), (some "HSTSWRITEFUNCTION", .HSTSWRITEFUNCTION),
    (some "HSTS_CTRL", .HSTS_CTRL), (some "HTTP09_ALLOWED", .HTTP09_ALLOWED),
    (some "HTTP200ALIASES", .HTTP200ALIASES), (some "HTTPAUTH", .HTTPAUTH),
    (some "HTTPGET", .HTTPGET), (some "HTTPHEADER", .HTTPHEADER), (some "HTTPPOST", .HTTPPOST),
    (some "HTTPPROXYTUNNEL", .HTTPPROXYTUNNEL),
    (some "HTTP_CONTENT_DECODING", .HTTP_CONTENT_DECODING),
    (some "HTTP_TRANSFER_DECODING", .HTTP_TRANSFER_DECODING), (some "HTTP_VERSION", .HTTP_VERSION),
    (some "IGNORE_CONTENT_LENGTH", .IGNORE_CONTENT_LENGTH), (some "INFILE", .READDATA),
    (some "INFILESIZE", .INFILESIZE), (some "INFILESIZE_LARGE", .INFILESIZE_LARGE),
    (some "INTERFACE", .INTERFACE), (some "INTERLEAVEDATA", .INTERLEAVEDATA),
    (some "INTERLEAVEFUNCTION", .INTERLEAVEFUNCTION), (some "IOCTLDATA", .IOCTLDATA),
    (some "IOCTLFUNCTION", .IOCTLFUNCTION), (some "IPRESOLVE", .IPRESOLVE),
    (some "ISSUERCERT", .ISSUERCERT), (some "ISSUERCERT_BLOB", .ISSUERCERT_BLOB),
    (some "KEEP_SENDING_ON_ERROR", .KEEP_SENDING_ON_ERROR), (some "KEYPASSWD", .KEYPASSWD),
    (some "KRB4LEVEL", .KRBLEVEL), (some "KRBLEVEL", .KRBLEVEL), (some "LOCALPORT", .LOCALPORT),
    (some "LOCALPORTRANGE", .LOCALPORTRANGE), (some "LOGIN_OPTIONS", .LOGIN_OPTIONS),
    (some "LOW_SPEED_LIMIT", .LOW_SPEED_LIMIT), (some "LOW_SPEED_TIME", .LOW_SPEED_TIME),
    (some "MAIL_AUTH", .MAIL_AUTH), (some "MAIL_FROM", .MAIL_FROM), (some "MAIL_RCPT", .MAIL_RCPT),
    (some "MAIL_RCPT_ALLLOWFAILS", .MAIL_RCPT_ALLOWFAILS),
    (some "MAIL_RCPT_ALLOWFAILS", .MAIL_RCPT_ALLOWFAILS), (some "MAXAGE_CONN", .MAXAGE_CONN),
    (some "MAXCONNECTS", .MAXCONNECTS), (some "MAXFILESIZE", .MAXFILESIZE),
    (some "MAXFILESIZE_LARGE", .MAXFILESIZE_LARGE), (some "MAXLIFETIME_CONN", .MAXLIFETIME_CONN),
    (some "MAXREDIRS", .MAXREDIRS), (some "MAX_RECV_SPEED_LARGE", .MAX_RECV_SPEED_LARGE),
    (some "MAX_SEND_SPEED_LARGE", .MAX_SEND_SPEED_LARGE), (some "MIMEPOST", .MIMEPOST),
    (some "MIME_OPTIONS", .MIME_OPTIONS), (some "NETRC", .NETRC), (some "NETRC_FILE", .NETRC_FILE),
    (some "NEW_DIRECTORY_PERMS", .NEW_DIRECTORY_PERMS), (some "NEW_FILE_PERMS", .NEW_FILE_PERMS),
    (some "NOBODY", .NOBODY), (some "NOPROGRESS", .NOPROGRESS), (some "NOPROXY", .NOPROXY),
    (some "NOSIGNAL", .NOSIGNAL), (some "OPENSOCKETDATA", .OPENSOCKETDATA),
    (some "OPENSOCKETFUNCTION", .OPENSOCKETFUNCTION), (some "PASSWORD", .PASSWORD),
    (some "PATH_AS_IS", .PATH_AS_IS), (some "PINNEDPUBLICKEY", .PINNEDPUBLICKEY),
    (some "PIPEWAIT", .PIPEWAIT), (some "PORT", .PORT), (some "POST", .POST),
    (some "POST301", .POSTREDIR), (some "POSTFIELDS", .POSTFIELDS),
    (some "POSTFIELDSIZE", .POSTFIELDSIZE), (some "POSTFIELDSIZE_LARGE", .POSTFIELDSIZE_LARGE),
    (some "POSTQUOTE", .POSTQUOTE), (some "POSTREDIR", .POSTREDIR), (some "PREQUOTE", .PREQUOTE),
    (some "PREREQDATA", .PREREQDATA), (some "PREREQFUNCTION", .PREREQFUNCTION),
    (some "PRE_PROXY", .PRE_PROXY), (some "PRIVATE", .PRIVATE),
    (some "PROGRESSDATA", .XFERINFODATA), (some "PROGRESSFUNCTION", .PROGRESSFUNCTION),
    (some "PROTOCOLS", .PROTOCOLS), (some "PROTOCOLS_STR", .PROTOCOLS_STR), (some "PROXY", .PROXY),
    (some "PROXYAUTH", .PROXYAUTH), (some "PROXYHEADER", .PROXYHEADER),
    (some "PROXYPASSWORD", .PROXYPASSWORD), (some "PROXYPORT", .PROXYPORT),
    (some "PROXYTYPE", .PROXYTYPE), (some "PROXYUSERNAME", .PROXYUSERNAME),
    (some "PROXYUSERPWD", .PROXYUSERPWD), (some "PROXY_CAINFO", .PROXY_CAINFO),
    (some "PROXY_CAINFO_BLOB", .PROXY_CAINFO_BLOB), (some "PROXY_CAPATH", .PROXY_CAPATH),
    (some "PROXY_CRLFILE", .PROXY_CRLFILE), (some "PROXY_ISSUERCERT", .PROXY_ISSUERCERT),
    (some "PROXY_ISSUERCERT_BLOB", .PROXY_ISSUERCERT_BLOB),
    (some "PROXY_KEYPASSWD", .PROXY_KEYPASSWD),
    (some "PROXY_PINNEDPUBLICKEY", .PROXY_PINNEDPUBLICKEY),
    (some "PROXY_SERVICE_NAME", .PROXY_SERVICE_NAME), (some "PROXY_SSLCERT", .PROXY_SSLCERT),
    (some "PROXY_SSLCERTTYPE", .PROXY_SSLCERTTYPE),
    (some "PROXY_SSLCERT_BLOB", .PROXY_SSLCERT_BLOB), (some "PROXY_SSLKEY", .PROXY_SSLKEY),
    (some "PROXY_SSLKEYTYPE", .PROXY_SSLKEYTYPE), (some "PROXY_SSLKEY_BLOB", .PROXY_SSLKEY_BLOB),
    (some "PROXY_SSLVERSION", .PROXY_SSLVERSION),
    (some "PROXY_SSL_CIPHER_LIST", .PROXY_SSL_CIPHER_LIST),
    (some "PROXY_SSL_OPTIONS", .PROXY_SSL_OPTIONS),
    (some "PROXY_SSL_VERIFYHOST", .PROXY_SSL_VERIFYHOST),
    (some "PROXY_SSL_VERIFYPEER", .PROXY_SSL_VERIFYPEER),
    (some "PROXY_TLS13_CIPHERS", .PROXY_TLS13_CIPHERS),
    (some "PROXY_TLSAUTH_PASSWORD", .PROXY_TLSAUTH_PASSWORD),
    (some "PROXY_TLSAUTH_TYPE", .PROXY_TLSAUTH_TYPE),
    (some "PROXY_TLSAUTH_USERNAME", .PROXY_TLSAUTH_USERNAME),
    (some "PROXY_TRANSFER_MODE", .PROXY_TRANSFER_MODE), (some "PUT", .PUT),
    (some "QUICK_EXIT", .QUICK_EXIT), (some "QUOTE", .QUOTE), (some "RANDOM_FILE", .RANDOM_FILE),
    (some "RANGE", .RANGE), (some "READDATA", .READDATA), (some "READFUNCTION", .READFUNCTION),
    (some "REDIR_PROTOCOLS", .REDIR_PROTOCOLS), (some "REDIR_PROTOCOLS_STR", .REDIR_PROTOCOLS_STR),
    (some "REFERER", .REFERER), (some "REQUEST_TARGET", .REQUEST_TARGET),
    (some "RESOLVE", .RESOLVE), (some "RESOLVER_START_DATA", .RESOLVER_START_DATA),
    (some "RESOLVER_START_FUNCTION", .RESOLVER_START_FUNCTION), (some "RESUME_FROM", .RESUME_FROM),
    (some "RESUME_FROM_LARGE", .RESUME_FROM_LARGE), (some "RTSPHEADER", .HTTPHEADER),
    (some "RTSP_CLIENT_CSEQ", .RTSP_CLIENT_CSEQ), (some "RTSP_REQUEST", .RTSP_REQUEST),
    (some "RTSP_SERVER_CSEQ", .RTSP_SERVER_CSEQ), (some "RTSP_SESSION_ID", .RTSP_SESSION_ID),
    (some "RTSP_STREAM_URI", .RTSP_STREAM_URI), (some "RTSP_TRANSPORT", .RTSP_TRANSPORT),
    (some "SASL_AUTHZID", .SASL_AUTHZID), (some "SASL_IR", .SASL_IR), (some "SEEKDATA", .SEEKDATA),
    (some "SEEKFUNCTION", .SEEKFUNCTION),
    (some "SERVER_RESPONSE_TIMEOUT", .SERVER_RESPONSE_TIMEOUT),
    (some "SERVICE_NAME", .SERVICE_NAME), (some "SHARE", .SHARE),
    (some "SOCKOPTDATA", .SOCKOPTDATA), (some "SOCKOPTFUNCTION", .SOCKOPTFUNCTION),
    (some "SOCKS5_AUTH", .SOCKS5_AUTH), (some "SOCKS5_GSSAPI_NEC", .SOCKS5_GSSAPI_NEC),
    (some "SOCKS5_GSSAPI_SERVICE", .SOCKS5_GSSAPI_SERVICE),
    (some "SSH_AUTH_TYPES", .SSH_AUTH_TYPES), (some "SSH_COMPRESSION", .SSH_COMPRESSION),
    (some "SSH_HOSTKEYDATA", .SSH_HOSTKEYDATA), (some "SSH_HOSTKEYFUNCTION", .SSH_HOSTKEYFUNCTION),
    (some "SSH_HOST_PUBLIC_KEY_MD5", .SSH_HOST_PUBLIC_KEY_MD5),
    (some "SSH_HOST_PUBLIC_KEY_SHA256", .SSH_HOST_PUBLIC_KEY_SHA256),
    (some "SSH_KEYDATA", .SSH_KEYDATA), (some "SSH_KEYFUNCTION", .SSH_KEYFUNCTION),
    (some "SSH_KNOWNHOSTS", .SSH_KNOWNHOSTS), (some "SSH_PRIVATE_KEYFILE", .SSH_PRIVATE_KEYFILE),
    (some "SSH_PUBLIC_KEYFILE", .SSH_PUBLIC_KEYFILE), (some "SSLCERT", .SSLCERT),
    (some "SSLCERTPASSWD", .KEYPASSWD), (some "SSLCERTTYPE", .SSLCERTTYPE),
    (some "SSLCERT_BLOB", .SSLCERT_BLOB), (some "SSLENGINE", .SSLENGINE),
    (some "SSLENGINE_DEFAULT", .SSLENGINE_DEFAULT), (some "SSLKEY", .SSLKEY),
    (some "SSLKEYPASSWD", .KEYPASSWD), (some "SSLKEYTYPE", .SSLKEYTYPE),
    (some "SSLKEY_BLOB", .SSLKEY_BLOB), (some "SSLVERSION", .SSLVERSION),
    (some "SSL_CIPHER_LIST", .SSL_CIPHER_LIST), (some "SSL_CTX_DATA", .SSL_CTX_DATA),
    (some "SSL_CTX_FUNCTION", .SSL_CTX_FUNCTION), (some "SSL_EC_CURVES", .SSL_EC_CURVES),
    (some "SSL_ENABLE_ALPN", .SSL_ENABLE_ALPN), (some "SSL_ENABLE_NPN", .SSL_ENABLE_NPN),
    (some "SSL_FALSESTART", .SSL_FALSESTART), (some "SSL_OPTIONS", .SSL_OPTIONS),
    (some "SSL_SESSIONID_CACHE", .SSL_SESSIONID_CACHE), (some "SSL_VERIFYHOST", .SSL_VERIFYHOST),
    (some "SSL_VERIFYPEER", .SSL_VERIFYPEER), (some "SSL_VERIFYSTATUS", .SSL_VERIFYSTATUS),
    (some "STDERR", .STDERR), (some "STREAM_DEPENDS", .STREAM_DEPENDS),
    (some "STREAM_DEPENDS_E", .STREAM_DEPENDS_E), (some "STREAM_WEIGHT", .STREAM_WEIGHT),
    (some "SUPPRESS_CONNECT_HEADERS", .SUPPRESS_CONNECT_HEADERS),
    (some "TCP_FASTOPEN", .TCP_FASTOPEN), (some "TCP_KEEPALIVE", .TCP_KEEPALIVE),
    (some "TCP_KEEPIDLE", .TCP_KEEPIDLE), (some "TCP_KEEPINTVL", .TCP_KEEPINTVL),
    (some "TCP_NODELAY", .TCP_NODELAY), (some "TELNETOPTIONS", .TELNETOPTIONS),
    (some "TFTP_BLKSIZE", .TFTP_BLKSIZE), (some "TFTP_NO_OPTIONS", .TFTP_NO_OPTIONS),
    (some "TIMECONDITION", .TIMECONDITION), (some "TIMEOUT", .TIMEOUT),
    (some "TIMEOUT_MS", .TIMEOUT_MS), (some "TIMEVALUE", .TIMEVALUE),
    (some "TIMEVALUE_LARGE", .TIMEVALUE_LARGE), (some "TLS13_CIPHERS", .TLS13_CIPHERS),
    (some "TLSAUTH_PASSWORD", .TLSAUTH_PASSWORD), (some "TLSAUTH_TYPE", .TLSAUTH_TYPE),
    (some "TLSAUTH_USERNAME", .TLSAUTH_USERNAME), (some "TRAILERDATA", .TRAILERDATA),
    (some "TRAILERFUNCTION", .TRAILERFUNCTION), (some "TRANSFERTEXT", .TRANSFERTEXT),
    (some "TRANSFER_ENCODING", .TRANSFER_ENCODING), (some "UNIX_SOCKET_PATH", .UNIX_SOCKET_PATH),
    (some "UNRESTRICTED_AUTH", .UNRESTRICTED_AUTH),
    (some "UPKEEP_INTERVAL_MS", .UPKEEP_INTERVAL_MS), (some "UPLOAD", .UPLOAD),
    (some "UPLOAD_BUFFERSIZE", .UPLOAD_BUFFERSIZE), (some "URL", .URL),
    (some "USERAGENT", .USERAGENT), (some "USERNAME", .USERNAME), (some "USERPWD", .USERPWD),
    (some "USE_SSL", .USE_SSL), (some "VERBOSE", .VERBOSE), (some "WILDCARDMATCH", .WILDCARDMATCH),
    (some "WRITEDATA", .WRITEDATA), (some "WRITEFUNCTION", .WRITEFUNCTION),
    (some "WRITEHEADER", .HEADERDATA), (some "WS_OPTIONS", .WS_OPTIONS),
    (some "XFERINFODATA", .XFERINFODATA), (some "XFERINFOFUNCTION", .XFERINFOFUNCTION),
    (some "XOAUTH2_BEARER", .XOAUTH2_BEARER), (none, .LASTENTRY)]

/-- What `curl_options_from_string` does with a name. -/
inductive LookupResult where
  /-- the name of a row: its option is returned -/
  | found (o : CURLoption)
  /-- `strcmp` is called on the NULL key of a row -/
  | strcmpNull
  /-- the loop ends: `RuntimeError`, then `(CURLoption)NULL` is returned -/
  | unknown
deriving DecidableEq

/-- The loop of `curl_options_from_string` over the rows still to visit. -/
def lookupRows (key : CStr) : List (Option String × CURLoption) → LookupResult
  | [] => .unknown
  | (none, _) :: _ => .strcmpNull
  | (some k, o) :: rows => if CStr.lit k = key then .found o else lookupRows key rows

/-- `curl_options_from_string`. -/
def curlOptionsFromString (key : CStr) : LookupResult := lookupRows key lookuptable

/-! ## What the search finds -/

section Rows

variable {key : CStr} {rows : List (Option String × CURLoption)}

/-- The search passes the rows with other keys. -/
theorem lookupRows_append_of_ne (rest : List (Option String × CURLoption))
    (hkeyed : ∀ row ∈ rows, row.1.isSome) (hne : ∀ row ∈ rows, row.1.map CStr.lit ≠ some key) :
    lookupRows key (rows ++ rest) = lookupRows key rest := by
  induction rows with
  | nil => rfl
  | cons row rows ih =>
      obtain ⟨_ | k, o⟩ := row
      · exact absurd (hkeyed _ List.mem_cons_self) (by simp)
      · have hk : CStr.lit k ≠ key := by
          simpa using hne (some k, o) List.mem_cons_self
        have hrest := ih (fun row hrow => hkeyed row (List.mem_cons_of_mem _ hrow))
          fun row hrow => hne row (List.mem_cons_of_mem _ hrow)
        rw [List.cons_append, lookupRows, if_neg hk, hrest]

/-- If the keys differ from each other, the search finds each row. -/
theorem lookupRows_append_of_mem (rest : List (Option String × CURLoption))
    (hkeyed : ∀ row ∈ rows, row.1.isSome) (hnodup : (rows.map fun row => row.1.map CStr.lit).Nodup)
    {o : CURLoption} {row : Option String × CURLoption} (hrow : row ∈ rows) (ho : row.2 = o)
    (hkey : row.1.map CStr.lit = some key) : lookupRows key (rows ++ rest) = .found o := by
  obtain ⟨before, after, rfl⟩ := List.append_of_mem hrow
  rw [List.map_append, List.map_cons, List.nodup_append] at hnodup
  obtain ⟨-, -, hapart⟩ := hnodup
  have hbefore : ∀ r ∈ before, r.1.map CStr.lit ≠ some key := by
    intro r hr
    rw [← hkey]
    exact hapart _ (List.mem_map_of_mem hr) _ List.mem_cons_self
  rw [List.append_assoc, lookupRows_append_of_ne _
    (fun r hr => hkeyed r (List.mem_append_left _ hr)) hbefore]
  obtain ⟨_ | k, o'⟩ := row
  · cases hkey
  · have hk : CStr.lit k = key := by simpa using hkey
    rw [List.cons_append, lookupRows, if_pos hk]
    exact congrArg _ ho

end Rows

/-- The rows in front of the terminator. -/
def namedRows : List (Option String × CURLoption) := lookuptable.dropLast

set_option maxRecDepth 8000 in
theorem lookuptable_eq : lookuptable = namedRows ++ [(none, .LASTENTRY)] := rfl

set_option maxRecDepth 8000 in
theorem namedRows_keyed : ∀ row ∈ namedRows, row.1.isSome := by decide

/-- The characters of the key of a row. -/
def keyChars (row : Option String × CURLoption) : List Nat :=
  match row.1 with
  | none => []
  | some k => (CStr.lit k).bytes.map BitVec.toNat

/-- The table is sorted. -/
theorem namedRows_sorted : (namedRows.map keyChars).IsChain (· < ·) := by decide +kernel

theorem namedRows_nodup : (namedRows.map fun row => row.1.map CStr.lit).Nodup := by
  have hsorted := List.isChain_iff_pairwise.mp namedRows_sorted
  rw [List.pairwise_map] at hsorted
  rw [List.Nodup, List.pairwise_map]
  refine hsorted.imp ?_
  intro row row' hlt heq
  have hchars : ∀ row : Option String × CURLoption, keyChars row =
      (row.1.map CStr.lit).elim [] fun k => k.bytes.map BitVec.toNat := by
    rintro ⟨_ | k, o⟩ <;> rfl
  rw [hchars, hchars, heq] at hlt
  exact lt_irrefl _ hlt

/-- The name of a row is found. -/
theorem curlOptionsFromString_of_mem {k : String} {o : CURLoption}
    (h : (some k, o) ∈ lookuptable) : curlOptionsFromString (CStr.lit k) = .found o := by
  have hnamed : (some k, o) ∈ namedRows := by
    rw [lookuptable_eq, List.mem_append] at h
    rcases h with h | h
    · exact h
    · simp at h
  rw [curlOptionsFromString, lookuptable_eq]
  exact lookupRows_append_of_mem _ namedRows_keyed namedRows_nodup hnamed rfl rfl

/-- The same for a row given by its place. -/
theorem curlOptionsFromString_of_getElem? {i : Nat} {k : String} {o : CURLoption}
    (h : lookuptable[i]? = some (some k, o)) : curlOptionsFromString (CStr.lit k) = .found o :=
  curlOptionsFromString_of_mem (List.mem_of_getElem? h)

/-- A name that no row has reaches the terminator. -/
theorem curlOptionsFromString_of_forall_ne {key : CStr}
    (h : ∀ k o, (some k, o) ∈ lookuptable → CStr.lit k ≠ key) :
    curlOptionsFromString key = .strcmpNull := by
  rw [curlOptionsFromString, lookuptable_eq]
  refine lookupRows_append_of_ne _ namedRows_keyed ?_
  rintro ⟨_ | k, o⟩ hrow
  · simp
  · have hk := h k o (by rw [lookuptable_eq]; exact List.mem_append_left _ hrow)
    simpa using hk

end Curl1C
