/-
  Curl1C.Curl.OptionType

  The type of the argument libcurl reads for an option (`CURLOPTTYPE_*` of
  curl.h).

  `curl_easy_setopt` is variadic, so the id of the option alone decides what
  libcurl takes from the argument list: a `long`, a 64-bit `curl_off_t`, or a
  pointer, which it then follows as a text, a list, a function and so on.
-/

import Curl1C.Curl.Proc

namespace Curl1C

/-- `CURLOPTTYPE_*`. -/
inductive OptionType where
  | LONG
  /-- a `long` out of a set of values -/
  | VALUES
  | OBJECTPOINT
  /-- `char *` to a text -/
  | STRINGPOINT
  /-- `curl_slist *` -/
  | SLISTPOINT
  /-- `void *` handed to a callback as it is -/
  | CBPOINT
  | FUNCTIONPOINT
  /-- `curl_off_t`, 64 bits -/
  | OFF_T
  /-- `curl_blob *` -/
  | BLOB
deriving DecidableEq

/-- The type curl.h declares an option with; `CURLOPT_LASTENTRY` is no
    option. -/
def CURLoption.type : CURLoption → Option OptionType
  | .PORT | .TIMEOUT | .INFILESIZE | .LOW_SPEED_LIMIT | .LOW_SPEED_TIME | .RESUME_FROM | .CRLF
  | .TIMEVALUE | .VERBOSE | .HEADER | .NOPROGRESS | .NOBODY | .FAILONERROR | .UPLOAD | .POST
  | .DIRLISTONLY | .APPEND | .FOLLOWLOCATION | .TRANSFERTEXT | .PUT | .AUTOREFERER | .PROXYPORT
  | .POSTFIELDSIZE | .HTTPPROXYTUNNEL | .SSL_VERIFYPEER | .MAXREDIRS | .FILETIME | .MAXCONNECTS
  | .FRESH_CONNECT | .FORBID_REUSE | .CONNECTTIMEOUT | .HTTPGET | .SSL_VERIFYHOST | .FTP_USE_EPSV
  | .SSLENGINE_DEFAULT | .DNS_USE_GLOBAL_CACHE | .DNS_CACHE_TIMEOUT | .COOKIESESSION
  | .BUFFERSIZE | .NOSIGNAL | .UNRESTRICTED_AUTH | .FTP_USE_EPRT | .FTP_CREATE_MISSING_DIRS
  | .SERVER_RESPONSE_TIMEOUT | .MAXFILESIZE | .TCP_NODELAY | .IGNORE_CONTENT_LENGTH
  | .FTP_SKIP_PASV_IP | .LOCALPORT | .LOCALPORTRANGE | .CONNECT_ONLY | .SSL_SESSIONID_CACHE
  | .FTP_SSL_CCC | .TIMEOUT_MS | .CONNECTTIMEOUT_MS | .HTTP_TRANSFER_DECODING
  | .HTTP_CONTENT_DECODING | .NEW_FILE_PERMS | .NEW_DIRECTORY_PERMS | .PROXY_TRANSFER_MODE
  | .ADDRESS_SCOPE | .CERTINFO | .TFTP_BLKSIZE | .SOCKS5_GSSAPI_NEC | .PROTOCOLS
  | .REDIR_PROTOCOLS | .FTP_USE_PRET | .RTSP_CLIENT_CSEQ | .RTSP_SERVER_CSEQ | .WILDCARDMATCH
  | .TRANSFER_ENCODING | .ACCEPTTIMEOUT_MS | .TCP_KEEPALIVE | .TCP_KEEPIDLE | .TCP_KEEPINTVL
  | .SASL_IR | .SSL_ENABLE_NPN | .SSL_ENABLE_ALPN | .EXPECT_100_TIMEOUT_MS | .SSL_VERIFYSTATUS
  | .SSL_FALSESTART | .PATH_AS_IS | .PIPEWAIT | .STREAM_WEIGHT | .TFTP_NO_OPTIONS | .TCP_FASTOPEN
  | .KEEP_SENDING_ON_ERROR | .PROXY_SSL_VERIFYPEER | .PROXY_SSL_VERIFYHOST | .PROXY_SSL_OPTIONS
  | .SUPPRESS_CONNECT_HEADERS | .SOCKS5_AUTH | .SSH_COMPRESSION | .HAPPY_EYEBALLS_TIMEOUT_MS
  | .HAPROXYPROTOCOL | .DNS_SHUFFLE_ADDRESSES | .DISALLOW_USERNAME_IN_URL | .UPLOAD_BUFFERSIZE
  | .UPKEEP_INTERVAL_MS | .HTTP09_ALLOWED | .ALTSVC_CTRL | .MAXAGE_CONN | .MAIL_RCPT_ALLOWFAILS
  | .HSTS_CTRL | .DOH_SSL_VERIFYPEER | .DOH_SSL_VERIFYHOST | .DOH_SSL_VERIFYSTATUS
  | .MAXLIFETIME_CONN | .MIME_OPTIONS | .WS_OPTIONS | .CA_CACHE_TIMEOUT | .QUICK_EXIT => some .LONG
  | .SSLVERSION | .TIMECONDITION | .NETRC | .HTTP_VERSION | .PROXYTYPE | .HTTPAUTH | .PROXYAUTH
  | .IPRESOLVE | .USE_SSL | .FTPSSLAUTH | .FTP_FILEMETHOD | .SSH_AUTH_TYPES | .POSTREDIR
  | .RTSP_REQUEST | .GSSAPI_DELEGATION | .SSL_OPTIONS | .HEADEROPT | .PROXY_SSLVERSION
      => some .VALUES
  | .ERRORBUFFER | .POSTFIELDS | .HTTPPOST | .STDERR | .SHARE | .PRIVATE | .COPYPOSTFIELDS
  | .STREAM_DEPENDS | .STREAM_DEPENDS_E | .MIMEPOST | .CURLU => some .OBJECTPOINT
  | .URL | .PROXY | .USERPWD | .PROXYUSERPWD | .RANGE | .REFERER | .FTPPORT | .USERAGENT
  | .COOKIE | .SSLCERT | .KEYPASSWD | .COOKIEFILE | .CUSTOMREQUEST | .INTERFACE | .KRBLEVEL
  | .CAINFO | .RANDOM_FILE | .EGDSOCKET | .COOKIEJAR | .SSL_CIPHER_LIST | .SSLCERTTYPE | .SSLKEY
  | .SSLKEYTYPE | .SSLENGINE | .CAPATH | .ACCEPT_ENCODING | .NETRC_FILE | .FTP_ACCOUNT
  | .COOKIELIST | .FTP_ALTERNATIVE_TO_USER | .SSH_PUBLIC_KEYFILE | .SSH_PRIVATE_KEYFILE
  | .SSH_HOST_PUBLIC_KEY_MD5 | .CRLFILE | .ISSUERCERT | .USERNAME | .PASSWORD | .PROXYUSERNAME
  | .PROXYPASSWORD | .NOPROXY | .SOCKS5_GSSAPI_SERVICE | .SSH_KNOWNHOSTS | .MAIL_FROM
  | .RTSP_SESSION_ID | .RTSP_STREAM_URI | .RTSP_TRANSPORT | .TLSAUTH_USERNAME | .TLSAUTH_PASSWORD
  | .TLSAUTH_TYPE | .DNS_SERVERS | .MAIL_AUTH | .XOAUTH2_BEARER | .DNS_INTERFACE | .DNS_LOCAL_IP4
  | .DNS_LOCAL_IP6 | .LOGIN_OPTIONS | .PINNEDPUBLICKEY | .UNIX_SOCKET_PATH | .PROXY_SERVICE_NAME
  | .SERVICE_NAME | .DEFAULT_PROTOCOL | .PROXY_CAINFO | .PROXY_CAPATH | .PROXY_TLSAUTH_USERNAME
  | .PROXY_TLSAUTH_PASSWORD | .PROXY_TLSAUTH_TYPE | .PROXY_SSLCERT | .PROXY_SSLCERTTYPE
  | .PROXY_SSLKEY | .PROXY_SSLKEYTYPE | .PROXY_KEYPASSWD | .PROXY_SSL_CIPHER_LIST
  | .PROXY_CRLFILE | .PRE_PROXY | .PROXY_PINNEDPUBLICKEY | .ABSTRACT_UNIX_SOCKET
  | .REQUEST_TARGET | .TLS13_CIPHERS | .PROXY_TLS13_CIPHERS | .DOH_URL | .ALTSVC | .SASL_AUTHZID
  | .PROXY_ISSUERCERT | .SSL_EC_CURVES | .HSTS | .AWS_SIGV4 | .SSH_HOST_PUBLIC_KEY_SHA256
  | .PROTOCOLS_STR | .REDIR_PROTOCOLS_STR | .HAPROXY_CLIENT_IP => some .STRINGPOINT
  | .HTTPHEADER | .QUOTE | .POSTQUOTE | .TELNETOPTIONS | .PREQUOTE | .HTTP200ALIASES | .MAIL_RCPT
  | .RESOLVE | .PROXYHEADER | .CONNECT_TO => some .SLISTPOINT
  | .WRITEDATA | .READDATA | .HEADERDATA | .XFERINFODATA | .DEBUGDATA | .SSL_CTX_DATA
  | .IOCTLDATA | .SOCKOPTDATA | .OPENSOCKETDATA | .SEEKDATA | .SSH_KEYDATA | .INTERLEAVEDATA
  | .CHUNK_DATA | .FNMATCH_DATA | .CLOSESOCKETDATA | .RESOLVER_START_DATA | .TRAILERDATA
  | .HSTSREADDATA | .HSTSWRITEDATA | .PREREQDATA | .SSH_HOSTKEYDATA => some .CBPOINT
  | .WRITEFUNCTION | .READFUNCTION | .PROGRESSFUNCTION | .HEADERFUNCTION | .DEBUGFUNCTION
  | .SSL_CTX_FUNCTION | .IOCTLFUNCTION | .CONV_FROM_NETWORK_FUNCTION | .CONV_TO_NETWORK_FUNCTION
  | .CONV_FROM_UTF8_FUNCTION | .SOCKOPTFUNCTION | .OPENSOCKETFUNCTION | .SEEKFUNCTION
  | .SSH_KEYFUNCTION | .INTERLEAVEFUNCTION | .CHUNK_BGN_FUNCTION | .CHUNK_END_FUNCTION
  | .FNMATCH_FUNCTION | .CLOSESOCKETFUNCTION | .XFERINFOFUNCTION | .RESOLVER_START_FUNCTION
  | .TRAILERFUNCTION | .HSTSREADFUNCTION | .HSTSWRITEFUNCTION | .PREREQFUNCTION
  | .SSH_HOSTKEYFUNCTION => some .FUNCTIONPOINT
  | .INFILESIZE_LARGE | .RESUME_FROM_LARGE | .MAXFILESIZE_LARGE | .POSTFIELDSIZE_LARGE
  | .MAX_SEND_SPEED_LARGE | .MAX_RECV_SPEED_LARGE | .TIMEVALUE_LARGE => some .OFF_T
  | .SSLCERT_BLOB | .SSLKEY_BLOB | .PROXY_SSLCERT_BLOB | .PROXY_SSLKEY_BLOB | .ISSUERCERT_BLOB
  | .PROXY_ISSUERCERT_BLOB | .CAINFO_BLOB | .PROXY_CAINFO_BLOB => some .BLOB
  | .LASTENTRY => none

/-- The argument is what libcurl reads for the option.  Of the objects it reads
    behind an `OBJECTPOINT`, the component has texts to post, shares and mime
    structures. -/
def readsArg (o : CURLoption) (a : OptVal) : Bool :=
  match o.type, a with
  | some .LONG, .long _ | some .VALUES, .long _ => true
  | some .OFF_T, .offT _ => true
  | some .STRINGPOINT, .str _ => true
  | some .SLISTPOINT, .slist _ => true
  | some .FUNCTIONPOINT, .fn _ => true
  | some .OBJECTPOINT, .str _ => o = .POSTFIELDS ∨ o = .COPYPOSTFIELDS
  | some .OBJECTPOINT, .share _ => o = .SHARE
  | some .OBJECTPOINT, .mime _ => o = .MIMEPOST
  | some .CBPOINT, .file _ | some .CBPOINT, .data _ | some .CBPOINT, .wt _
  | some .CBPOINT, .prog _ => true
  | some .OBJECTPOINT, .null | some .STRINGPOINT, .null | some .SLISTPOINT, .null
  | some .CBPOINT, .null | some .FUNCTIONPOINT, .null | some .BLOB, .null => true
  | _, _ => false

section Reads

variable {o : CURLoption}

/-- A `long` is read for the integer options. -/
theorem readsArg_long_iff (n : Int) :
    readsArg o (.long n) = true ↔ o.type = some .LONG ∨ o.type = some .VALUES := by
  unfold readsArg
  rcases o.type with _ | t
  · simp
  · cases t <;> simp

/-- A text is read for the text options and the two with data to post. -/
theorem readsArg_str_iff (s : CStr) :
    readsArg o (.str s) = true ↔
      o.type = some .STRINGPOINT ∨ o = .POSTFIELDS ∨ o = .COPYPOSTFIELDS := by
  have hpost : o = .POSTFIELDS ∨ o = .COPYPOSTFIELDS → o.type = some .OBJECTPOINT := by
    rintro (rfl | rfl) <;> rfl
  unfold readsArg
  by_cases hdata : o = .POSTFIELDS ∨ o = .COPYPOSTFIELDS
  · rw [hpost hdata]
    simp [hdata]
  · simp only [hdata, or_false]
    rcases o.type with _ | t
    · simp
    · cases t <;> simp

end Reads

end Curl1C
