import Mathlib.Algebra.Ring.Int.Defs
import Mathlib.Algebra.Ring.Nat

/-!
# Strings and `util.c`

A C string is the list of its bytes up to the terminating NUL.  `bytes` turns a literal of the
source into such a list; `strcasecmp`, `strncpy` and `atoi` follow the C library, and
`appendFormat` and `getStatusString` are the functions of the same names of `util.c`.
-/

namespace H2ClientProxy

/-- The bytes of a string or of a buffer. -/
abbrev Bytes := List UInt8

/-- The bytes of a string literal of the source. -/
def bytes (s : String) : Bytes := s.toList.map fun c => c.toNat.toUInt8

/-- `"\r\n"`. -/
def crlf : Bytes := [13, 10]

/-- `tolower` in the C locale. -/
def tolower (c : UInt8) : UInt8 := if 65 ≤ c ∧ c ≤ 90 then c + 32 else c

/-- `strcasecmp(a, b) == 0`. -/
def strcasecmp (a b : Bytes) : Bool := a.map tolower == b.map tolower

/-- The characters that `strncpy(dst, src, n)` copies into a zeroed `dst`: up to the first NUL of
`src`, and at most `n`.  When `n` of them are copied there is no terminating NUL. -/
def strncpy (src : Bytes) (n : ℕ) : Bytes := (src.takeWhile (· ≠ 0)).take n

/-- The digits of `atoi`, from the left, onto the value read so far. -/
def atoiDigits : Bytes → ℤ → ℤ
  | [], acc => acc
  | c :: cs, acc => if 48 ≤ c ∧ c ≤ 57 then atoiDigits cs (acc * 10 + (c.toNat - 48)) else acc

/-- `atoi` of a string without a sign and without leading spaces (HTTP/2 status codes have
neither); a text that does not start with a digit reads as `0`. -/
def atoi (s : Bytes) : ℤ := atoiDigits s 0

/-- `append_format(buf, len, …)` on a `buf` of `len` bytes: the formatted text passes through
`tmp_buf` of `4096 * 20` bytes, and `strncat` then appends at most `len` of its characters whatever
`buf` holds already.  `none` when the result and its NUL leave `buf`. -/
def appendFormat (buf : Bytes) (len : ℕ) (text : Bytes) : Option Bytes :=
  let res := buf ++ (text.take (4096 * 20 - 1)).take len
  if res.length < len then some res else none

/-- `get_status_string(status_code, upgrade)`. -/
def getStatusString (statusCode : ℤ) (upgrade : Bool) : Bytes :=
  bytes <|
    if statusCode = 100 then "100 Continue"
    else if statusCode = 101 then "101 Switching Protocols"
    else if statusCode = 200 then (if upgrade then "200 Connection established" else "200 OK")
    else if statusCode = 201 then "201 Created"
    else if statusCode = 202 then "202 Accepted"
    else if statusCode = 203 then "203 Non-Authoritative Information"
    else if statusCode = 204 then "204 No Content"
    else if statusCode = 205 then "205 Reset Content"
    else if statusCode = 206 then "206 Partial Content"
    else if statusCode = 300 then "300 Multiple Choices"
    else if statusCode = 301 then "301 Moved Permanently"
    else if statusCode = 302 then "302 Found"
    else if statusCode = 303 then "303 See Other"
    else if statusCode = 304 then "304 Not Modified"
    else if statusCode = 305 then "305 Use Proxy"
    else if statusCode = 306 then "306 (Unused)"
    else if statusCode = 307 then "307 Temporary Redirect"
    else if statusCode = 400 then "400 Bad Request"
    else if statusCode = 401 then "401 Unauthorized"
    else if statusCode = 402 then "402 Payment Required"
    else if statusCode = 403 then "403 Forbidden"
    else if statusCode = 404 then "404 Not Found"
    else if statusCode = 405 then "405 Method Not Allowed"
    else if statusCode = 406 then "406 Not Acceptable"
    else if statusCode = 407 then "407 Proxy Authentication Required"
    else if statusCode = 408 then "408 Request Timeout"
    else if statusCode = 409 then "409 Conflict"
    else if statusCode = 410 then "410 Gone"
    else if statusCode = 411 then "411 Length Required"
    else if statusCode = 412 then "412 Precondition Failed"
    else if statusCode = 413 then "413 Request Entity Too Large"
    else if statusCode = 414 then "414 Request-URI Too Long"
    else if statusCode = 415 then "415 Unsupported Media Type"
    else if statusCode = 416 then "416 Requested Range Not Satisfiable"
    else if statusCode = 417 then "417 Expectation Failed"
    else if statusCode = 425 then "425 Bad Host"
    else if statusCode = 500 then "500 Internal Server Error"
    else if statusCode = 501 then "501 Not Implemented"
    else if statusCode = 502 then "502 Bad Gateway"
    else if statusCode = 503 then "503 Service Unavailable"
    else if statusCode = 504 then "504 Gateway Timeout"
    else if statusCode = 505 then "505 HTTP Version Not Supported"
    else ""

/-- The text of `snprintf("%X\r\n", n)`, the size line of a chunk. -/
def chunkSizeLine (n : ℕ) : Bytes :=
  ((Nat.toDigits 16 n).map fun c => c.toUpper.toNat.toUInt8) ++ crlf

end H2ClientProxy
