/-
  Curl1C.Curl.Option

  Two enumerations of curl.h.

  `CURLoption`: the option ids that the component can name, that is every id its
  lookup table lists, in the order of curl.h, and the terminator
  `CURLOPT_LASTENTRY`.  Aliases (`CURLOPT_FILE`, `CURLOPT_INFILE`,
  `CURLOPT_RTSPHEADER`, ...) are `#define`s of these ids and have no constructor
  of their own.

  `CURLcode`: the results that the modelled functions of libcurl return.
-/

namespace Curl1C

/-- `CURLoption`, without the `CURLOPT_` of the C names. -/
inductive CURLoption where
  | WRITEDATA | URL | PORT | PROXY | USERPWD | PROXYUSERPWD | RANGE | READDATA | ERRORBUFFER
  | WRITEFUNCTION | READFUNCTION | TIMEOUT | INFILESIZE | POSTFIELDS | REFERER | FTPPORT
  | USERAGENT | LOW_SPEED_LIMIT | LOW_SPEED_TIME | RESUME_FROM | COOKIE | HTTPHEADER | HTTPPOST
  | SSLCERT | KEYPASSWD | CRLF | QUOTE | HEADERDATA | COOKIEFILE | SSLVERSION | TIMECONDITION
  | TIMEVALUE | CUSTOMREQUEST | STDERR | POSTQUOTE | VERBOSE | HEADER | NOPROGRESS | NOBODY
  | FAILONERROR | UPLOAD | POST | DIRLISTONLY | APPEND | NETRC | FOLLOWLOCATION | TRANSFERTEXT
  | PUT | PROGRESSFUNCTION | XFERINFODATA | AUTOREFERER | PROXYPORT | POSTFIELDSIZE
  | HTTPPROXYTUNNEL | INTERFACE | KRBLEVEL | SSL_VERIFYPEER | CAINFO | MAXREDIRS | FILETIME
  | TELNETOPTIONS | MAXCONNECTS | FRESH_CONNECT | FORBID_REUSE | RANDOM_FILE | EGDSOCKET
  | CONNECTTIMEOUT | HEADERFUNCTION | HTTPGET | SSL_VERIFYHOST | COOKIEJAR | SSL_CIPHER_LIST
  | HTTP_VERSION | FTP_USE_EPSV | SSLCERTTYPE | SSLKEY | SSLKEYTYPE | SSLENGINE
  | SSLENGINE_DEFAULT | DNS_USE_GLOBAL_CACHE | DNS_CACHE_TIMEOUT | PREQUOTE | DEBUGFUNCTION
  | DEBUGDATA | COOKIESESSION | CAPATH | BUFFERSIZE | NOSIGNAL | SHARE | PROXYTYPE
  | ACCEPT_ENCODING | PRIVATE | HTTP200ALIASES | UNRESTRICTED_AUTH | FTP_USE_EPRT | HTTPAUTH
  | SSL_CTX_FUNCTION | SSL_CTX_DATA | FTP_CREATE_MISSING_DIRS | PROXYAUTH
  | SERVER_RESPONSE_TIMEOUT | IPRESOLVE | MAXFILESIZE | INFILESIZE_LARGE | RESUME_FROM_LARGE
  | MAXFILESIZE_LARGE | NETRC_FILE | USE_SSL | POSTFIELDSIZE_LARGE | TCP_NODELAY | FTPSSLAUTH
  | IOCTLFUNCTION | IOCTLDATA | FTP_ACCOUNT | COOKIELIST | IGNORE_CONTENT_LENGTH
  | FTP_SKIP_PASV_IP | FTP_FILEMETHOD | LOCALPORT | LOCALPORTRANGE | CONNECT_ONLY
  | CONV_FROM_NETWORK_FUNCTION | CONV_TO_NETWORK_FUNCTION | CONV_FROM_UTF8_FUNCTION
  | MAX_SEND_SPEED_LARGE | MAX_RECV_SPEED_LARGE | FTP_ALTERNATIVE_TO_USER | SOCKOPTFUNCTION
  | SOCKOPTDATA | SSL_SESSIONID_CACHE | SSH_AUTH_TYPES | SSH_PUBLIC_KEYFILE | SSH_PRIVATE_KEYFILE
  | FTP_SSL_CCC | TIMEOUT_MS | CONNECTTIMEOUT_MS | HTTP_TRANSFER_DECODING | HTTP_CONTENT_DECODING
  | NEW_FILE_PERMS | NEW_DIRECTORY_PERMS | POSTREDIR | SSH_HOST_PUBLIC_KEY_MD5
  | OPENSOCKETFUNCTION | OPENSOCKETDATA | COPYPOSTFIELDS | PROXY_TRANSFER_MODE | SEEKFUNCTION
  | SEEKDATA | CRLFILE | ISSUERCERT | ADDRESS_SCOPE | CERTINFO | USERNAME | PASSWORD
  | PROXYUSERNAME | PROXYPASSWORD | NOPROXY | TFTP_BLKSIZE | SOCKS5_GSSAPI_SERVICE
  | SOCKS5_GSSAPI_NEC | PROTOCOLS | REDIR_PROTOCOLS | SSH_KNOWNHOSTS | SSH_KEYFUNCTION
  | SSH_KEYDATA | MAIL_FROM | MAIL_RCPT | FTP_USE_PRET | RTSP_REQUEST | RTSP_SESSION_ID
  | RTSP_STREAM_URI | RTSP_TRANSPORT | RTSP_CLIENT_CSEQ | RTSP_SERVER_CSEQ | INTERLEAVEDATA
  | INTERLEAVEFUNCTION | WILDCARDMATCH | CHUNK_BGN_FUNCTION | CHUNK_END_FUNCTION
  | FNMATCH_FUNCTION | CHUNK_DATA | FNMATCH_DATA | RESOLVE | TLSAUTH_USERNAME | TLSAUTH_PASSWORD
  | TLSAUTH_TYPE | TRANSFER_ENCODING | CLOSESOCKETFUNCTION | CLOSESOCKETDATA | GSSAPI_DELEGATION
  | DNS_SERVERS | ACCEPTTIMEOUT_MS | TCP_KEEPALIVE | TCP_KEEPIDLE | TCP_KEEPINTVL | SSL_OPTIONS
  | MAIL_AUTH | SASL_IR | XFERINFOFUNCTION | XOAUTH2_BEARER | DNS_INTERFACE | DNS_LOCAL_IP4
  | DNS_LOCAL_IP6 | LOGIN_OPTIONS | SSL_ENABLE_NPN | SSL_ENABLE_ALPN | EXPECT_100_TIMEOUT_MS
  | PROXYHEADER | HEADEROPT | PINNEDPUBLICKEY | UNIX_SOCKET_PATH | SSL_VERIFYSTATUS
  | SSL_FALSESTART | PATH_AS_IS | PROXY_SERVICE_NAME | SERVICE_NAME | PIPEWAIT | DEFAULT_PROTOCOL
  | STREAM_WEIGHT | STREAM_DEPENDS | STREAM_DEPENDS_E | TFTP_NO_OPTIONS | CONNECT_TO
  | TCP_FASTOPEN | KEEP_SENDING_ON_ERROR | PROXY_CAINFO | PROXY_CAPATH | PROXY_SSL_VERIFYPEER
  | PROXY_SSL_VERIFYHOST | PROXY_SSLVERSION | PROXY_TLSAUTH_USERNAME | PROXY_TLSAUTH_PASSWORD
  | PROXY_TLSAUTH_TYPE | PROXY_SSLCERT | PROXY_SSLCERTTYPE | PROXY_SSLKEY | PROXY_SSLKEYTYPE
  | PROXY_KEYPASSWD | PROXY_SSL_CIPHER_LIST | PROXY_CRLFILE | PROXY_SSL_OPTIONS | PRE_PROXY
  | PROXY_PINNEDPUBLICKEY | ABSTRACT_UNIX_SOCKET | SUPPRESS_CONNECT_HEADERS | REQUEST_TARGET
  | SOCKS5_AUTH | SSH_COMPRESSION | MIMEPOST | TIMEVALUE_LARGE | HAPPY_EYEBALLS_TIMEOUT_MS
  | RESOLVER_START_FUNCTION | RESOLVER_START_DATA | HAPROXYPROTOCOL | DNS_SHUFFLE_ADDRESSES
  | TLS13_CIPHERS | PROXY_TLS13_CIPHERS | DISALLOW_USERNAME_IN_URL | DOH_URL | UPLOAD_BUFFERSIZE
  | UPKEEP_INTERVAL_MS | CURLU | TRAILERFUNCTION | TRAILERDATA | HTTP09_ALLOWED | ALTSVC_CTRL
  | ALTSVC | MAXAGE_CONN | SASL_AUTHZID | MAIL_RCPT_ALLOWFAILS | SSLCERT_BLOB | SSLKEY_BLOB
  | PROXY_SSLCERT_BLOB | PROXY_SSLKEY_BLOB | ISSUERCERT_BLOB | PROXY_ISSUERCERT
  | PROXY_ISSUERCERT_BLOB | SSL_EC_CURVES | HSTS_CTRL | HSTS | HSTSREADFUNCTION | HSTSREADDATA
  | HSTSWRITEFUNCTION | HSTSWRITEDATA | AWS_SIGV4 | DOH_SSL_VERIFYPEER | DOH_SSL_VERIFYHOST
  | DOH_SSL_VERIFYSTATUS | CAINFO_BLOB | PROXY_CAINFO_BLOB | SSH_HOST_PUBLIC_KEY_SHA256
  | PREREQFUNCTION | PREREQDATA | MAXLIFETIME_CONN | MIME_OPTIONS | SSH_HOSTKEYFUNCTION
  | SSH_HOSTKEYDATA | PROTOCOLS_STR | REDIR_PROTOCOLS_STR | WS_OPTIONS | CA_CACHE_TIMEOUT
  | QUICK_EXIT | HAPROXY_CLIENT_IP | LASTENTRY
deriving DecidableEq

/-- `CURLcode`, without the `CURLE_` of the C names. -/
inductive CURLcode where
  | OK | URL_MALFORMAT | PARTIAL_FILE | WRITE_ERROR | READ_ERROR | OUT_OF_MEMORY
  | ABORTED_BY_CALLBACK | BAD_FUNCTION_ARGUMENT | SEND_ERROR | RECV_ERROR | SEND_FAIL_REWIND
  | TOO_LARGE
deriving DecidableEq

end Curl1C
