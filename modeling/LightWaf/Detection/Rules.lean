import LightWaf.Core.Request

/-!
# Rule tables

The rules of `waf-detection`, table by table in source order: the id, the
pattern, the severity and the lowest paranoia level at which a rule is active.
The patterns are the regular expressions of the source, character by
character; braces are written as escapes.
-/

namespace LightWaf.Detection

open LightWaf.Core

/-- A detection rule. -/
structure Rule where
  id : String
  pattern : String
  severity : Severity
  paranoia : Nat
deriving DecidableEq

/-- The rules of a table that a paranoia level activates. -/
def activeRules (table : List Rule) (paranoia : Nat) : List Rule :=
  table.filter fun rule => rule.paranoia ≤ paranoia

/-- `SHELLSHOCK_PATTERN`. -/
def shellshockPattern : String :=
  "(?:^|[\\s;&|=])\\(\\)\\s*\\\x7b"

/-- `NOSQL_OPERATOR_KEY_PATTERN`. -/
def nosqlOperatorKeyPattern : String :=
  "\\$(?:or|and|nor|not|ne|eq|gt|gte|lt|lte|nin|in|regex|exists|expr" ++
    "|elemMatch|all|size|type|mod|where|jsonSchema)\\b"

/-- `PROTO_POLLUTION_KEY_PATTERN`. -/
def protoPollutionKeyPattern : String :=
  "\\b__proto__\\b|\\bconstructor\\.prototype\\b"

/-- `SQLI_RULES`. -/
def sqliRules : List Rule := [
  { id := "sqli-union-select"
    pattern := "(?i)\\bunion\\s+(?:all\\s+)?select\\b"
    severity := .critical
    paranoia := 1 },
  { id := "sqli-tautology-or"
    pattern :=
      "(?i)\\bor\\s+(?:(?:0x[0-9a-f]+|\\d+(?:\\.\\d+)?(?:e\\d+)?" ++
        "|['\"`]?\\w['\"`]?)\\s*=\\s*(?:0x[0-9a-f]+" ++
        "|\\d+(?:\\.\\d+)?(?:e\\d+)?|['\"`]?\\w['\"`]?)|(?:0x[0-9a-f]+" ++
        "|\\d+(?:\\.\\d+)?(?:e\\d+)?)\\s*(?:<=|>=|<>|!=|<" ++
        "|>)\\s*(?:0x[0-9a-f]+|\\d+(?:\\.\\d+)?(?:e\\d+)?)" ++
        "|(?:0x[0-9a-f]+|\\d+(?:\\.\\d+)?(?:e\\d+)?)\\s+like\\s+(?:0x[0" ++
        "-9a-f]+|\\d+(?:\\.\\d+)?(?:e\\d+)?))"
    severity := .critical
    paranoia := 1 },
  { id := "sqli-stacked-query"
    pattern :=
      "(?i);\\s*(?:select|insert|update|delete|drop|truncate" ++
        "|exec(?:ute)?|call)\\b"
    severity := .critical
    paranoia := 1 },
  { id := "sqli-time-based"
    pattern := "(?i)\\b(?:sleep|pg_sleep|waitfor\\s+delay|benchmark)\\s*\\("
    severity := .critical
    paranoia := 1 },
  { id := "sqli-mysql-versioned-comment"
    pattern :=
      "(?i)/\\*!\\d*\\s*(?:union|select|insert|update|delete|drop" ++
        "|alter|or|and|where|from|having|exec|cast|concat|sleep)"
    severity := .critical
    paranoia := 1 },
  { id := "sqli-information-schema"
    pattern := "(?i)\\binformation_schema\\b"
    severity := .critical
    paranoia := 1 },
  { id := "sqli-json-function"
    pattern :=
      "(?i)\\bjson_(?:extract|depth|keys|search|contains" ++
        "|contains_path|value|arrayagg|objectagg|object|array|quote" ++
        "|unquote|type|valid|length|merge\\w*|set|insert|replace" ++
        "|remove|overlaps|table|pretty|storage_\\w+)\\s*\\("
    severity := .critical
    paranoia := 1 },
  { id := "sqli-tautology-and"
    pattern :=
      "(?i)\\band\\s+(?:(?:0x[0-9a-f]+|\\d+(?:\\.\\d+)?(?:e\\d+)?" ++
        "|['\"`]?\\w['\"`]?)\\s*=\\s*(?:0x[0-9a-f]+" ++
        "|\\d+(?:\\.\\d+)?(?:e\\d+)?|['\"`]?\\w['\"`]?)|(?:0x[0-9a-f]+" ++
        "|\\d+(?:\\.\\d+)?(?:e\\d+)?)\\s*(?:<=|>=|<>|!=|<" ++
        "|>)\\s*(?:0x[0-9a-f]+|\\d+(?:\\.\\d+)?(?:e\\d+)?)" ++
        "|(?:0x[0-9a-f]+|\\d+(?:\\.\\d+)?(?:e\\d+)?)\\s+like\\s+(?:0x[0" ++
        "-9a-f]+|\\d+(?:\\.\\d+)?(?:e\\d+)?))"
    severity := .warning
    paranoia := 2 },
  { id := "sqli-quote-comment"
    pattern := "(?i)['\"`]\\s*(?:--|#)"
    severity := .warning
    paranoia := 2 },
  { id := "sqli-cast-convert"
    pattern := "(?i)\\b(?:cast|convert)\\s*\\("
    severity := .notice
    paranoia := 3 },
  { id := "sqli-hex-literal"
    pattern := "(?i)\\b0x[0-9a-f]\x7b6,\x7d\\b"
    severity := .notice
    paranoia := 3 },
  { id := "sqli-error-based-fn"
    pattern := "(?i)\\b(?:extractvalue|updatexml)\\s*\\("
    severity := .critical
    paranoia := 1 },
  { id := "sqli-error-exp-overflow"
    pattern := "(?i)\\bexp\\s*\\(\\s*~"
    severity := .critical
    paranoia := 1 },
  { id := "sqli-subquery-exists"
    pattern := "(?i)\\bexists\\s*\\(\\s*select\\b"
    severity := .critical
    paranoia := 1 },
  { id := "sqli-mssql-dangerous-proc"
    pattern :=
      "(?i)(?:[.;(=]\\s*|\\bexec(?:ute)?\\s+(?:[\\w$]+\\.)*)(?:xp_cmd" ++
        "shell|xp_dirtree|xp_fileexist|xp_reg(?:read|write|deletekey" ++
        "|deletevalue|enumvalues)|sp_oacreate|sp_oamethod" ++
        "|sp_makewebtask|xp_servicecontrol|xp_availablemedia)\\b"
    severity := .critical
    paranoia := 1 }]

/-- `XSS_RULES`. -/
def xssRules : List Rule := [
  { id := "xss-script-tag"
    pattern := "(?i)<script[\\s>/]"
    severity := .critical
    paranoia := 1 },
  { id := "xss-javascript-proto"
    pattern := "(?i)javascript\\s*:[^()]*[a-z_$][\\w$]*\\("
    severity := .critical
    paranoia := 1 },
  { id := "xss-event-handler"
    pattern :=
      "(?i)\\bon(?:error|load|click|auxclick|mouse\\w+|pointer\\w+" ++
        "|focus|blur|change|submit|key\\w+|abort|drag\\w+|drop|input" ++
        "|wheel|scroll|toggle|beforetoggle|select|reset|resize" ++
        "|contextmenu|animation\\w+|transition\\w+|play|pause|ended" ++
        "|canplay|copy|cut|paste)\\s*="
    severity := .critical
    paranoia := 1 },
  { id := "xss-dangerous-tag"
    pattern := "(?i)<(?:iframe|object|embed|applet|link|meta|base)[\\s>/]"
    severity := .warning
    paranoia := 2 },
  { id := "xss-eval"
    pattern := "(?i)\\beval\\s*\\("
    severity := .warning
    paranoia := 2 },
  { id := "xss-js-sink-call"
    pattern :=
      "(?i)(?:\\b(?:alert|confirm|prompt)(?:\\?\\.)?\\(" ++
        "|\\(\\s*(?:alert|confirm|prompt)\\s*\\)\\s*\\()"
    severity := .warning
    paranoia := 2 },
  { id := "xss-js-sink-invocation"
    pattern :=
      "(?i)\\b(?:alert|confirm|prompt|eval)\\s*\\.\\s*(?:call|apply" ++
        "|bind)\\s*\\("
    severity := .warning
    paranoia := 2 },
  { id := "xss-document-cookie"
    pattern := "(?i)document\\s*(?:\\.\\s*cookie|\\[\\s*['\"]cookie)"
    severity := .warning
    paranoia := 2 },
  { id := "xss-vbscript-proto"
    pattern := "(?i)vbscript\\s*:"
    severity := .notice
    paranoia := 3 },
  { id := "xss-data-html-uri"
    pattern := "(?i)data\\s*:\\s*text/html"
    severity := .notice
    paranoia := 3 },
  { id := "xss-innerhtml"
    pattern := "(?i)\\.innerHTML\\s*="
    severity := .notice
    paranoia := 3 }]

/-- `PATH_TRAVERSAL_RULES`. -/
def pathTraversalRules : List Rule := [
  { id := "pt-dotdot-traversal"
    pattern := "(?:\\.\\.[\\\\/])\x7b2,\x7d"
    severity := .critical
    paranoia := 1 },
  { id := "pt-sensitive-unix"
    pattern :=
      "(?i)/(?:etc/(?:passwd|shadow|group|hosts)|proc/self" ++
        "|proc/version)"
    severity := .critical
    paranoia := 1 },
  { id := "pt-sensitive-windows"
    pattern :=
      "(?i)(?:boot\\.ini|win\\.ini|[\\\\/]windows[\\\\/]" ++
        "|[\\\\/]system32\\b)"
    severity := .critical
    paranoia := 1 },
  { id := "pt-null-byte"
    pattern := "\\x00"
    severity := .warning
    paranoia := 2 },
  { id := "pt-unc-path"
    pattern := "(?i)\\\\\\\\[a-z0-9_.$:-]+\\\\"
    severity := .notice
    paranoia := 3 },
  { id := "pt-unc-admin-share"
    pattern := "(?i)\\\\\\\\[a-z0-9_.:-]+\\\\[a-z]+\\$\\\\"
    severity := .critical
    paranoia := 1 }]

/-- `RCE_RULES`. -/
def rceRules : List Rule := [
  { id := "rce-cmd-substitution"
    pattern := "\\$\\([^)]+\\)"
    severity := .critical
    paranoia := 1 },
  { id := "rce-chained-command"
    pattern :=
      "(?i)[;&|]\\s*(?:cat|ls|id|whoami|uname|pwd|wget|curl|nc|ncat" ++
        "|netcat|ping|bash|sh|zsh|python|perl|ruby|nslookup|dig|getent" ++
        "|host|chmod|rm|cp|mv|kill|telnet|powershell|cmd)\\b"
    severity := .critical
    paranoia := 1 },
  { id := "rce-shell-path"
    pattern :=
      "(?i)(?:/bin/(?:sh|bash|zsh|dash|ksh)\\b|cmd\\.exe" ++
        "|powershell\\.exe)"
    severity := .critical
    paranoia := 1 },
  { id := "rce-reverse-shell"
    pattern := "(?i)(?:/dev/tcp/|bash\\s+-i|nc\\s+-[a-z]*e|mkfifo)"
    severity := .critical
    paranoia := 1 },
  { id := "rce-shellshock"
    pattern := shellshockPattern
    severity := .critical
    paranoia := 1 },
  { id := "rce-yaml-deserialization"
    pattern := "(?i)!!python/(?:object|module|name|apply)"
    severity := .critical
    paranoia := 1 },
  { id := "rce-backtick"
    pattern := "`[^`]+`"
    severity := .warning
    paranoia := 2 },
  { id := "rce-ifs-evasion"
    pattern := "(?i)\\$(?:\\\x7bifs\\\x7d|ifs\\b)"
    severity := .warning
    paranoia := 2 },
  { id := "rce-download-exec"
    pattern := "(?i)\\b(?:wget|curl)\\s+(?:-\\S+\\s+)*https?://"
    severity := .warning
    paranoia := 2 },
  { id := "rce-windows-shell"
    pattern :=
      "(?i)(?:cmd(?:\\.exe)?\\s*/c|powershell(?:\\.exe)?\\s+-" ++
        "|\\bset\\s+/[ap]\\b)"
    severity := .warning
    paranoia := 2 },
  { id := "rce-logical-operator"
    pattern := "&&|\\|\\|"
    severity := .notice
    paranoia := 3 },
  { id := "rce-expression-language"
    pattern :=
      "(?i)[#$]\\\x7b[^\x7d]*\\b(?:print|eval|exec|system|passthru" ++
        "|assert|shell_exec|popen|phpinfo|file_get_contents|getruntime" ++
        "|runtime|processbuilder)\\s*\\("
    severity := .critical
    paranoia := 1 },
  { id := "rce-vbscript-on-error"
    pattern := "(?i)\\bon\\s+error\\s+resume\\s+next\\b"
    severity := .critical
    paranoia := 1 },
  { id := "rce-asp-server-intrinsic"
    pattern :=
      "(?i)\\bserver\\.(?:scripttimeout|createobject|mappath|execute" ++
        "|transfer)\\b"
    severity := .critical
    paranoia := 1 },
  { id := "rce-vbscript-createobject"
    pattern :=
      "(?i)\\bcreateobject\\s*\\(\\s*[\"']?(?:wscript\\.|msxml" ++
        "|adodb\\.|scripting\\.filesystemobject|shell\\.application" ++
        "|microsoft\\.xmlhttp)"
    severity := .critical
    paranoia := 1 },
  { id := "rce-asp-response-write"
    pattern := "(?i)\\bresponse\\.write\\s*\\("
    severity := .warning
    paranoia := 2 }]

/-- `LFI_RFI_RULES`. -/
def lfiRfiRules : List Rule := [
  { id := "lfi-stream-wrapper"
    pattern := "(?i)(?:php|phar|zip|glob|expect|file|data)://"
    severity := .critical
    paranoia := 1 },
  { id := "lfi-filter-chain"
    pattern :=
      "(?i)convert\\.(?:base64-encode|base64-decode" ++
        "|quoted-printable-encode)"
    severity := .critical
    paranoia := 1 },
  { id := "lfi-data-base64"
    pattern := "(?i)data:[^,]*;base64,"
    severity := .warning
    paranoia := 2 },
  { id := "rfi-remote-script"
    pattern := "(?i)(?:https?|ftp)://\\S+\\.(?:php|phtml|phar|asp|aspx|jsp)\\b"
    severity := .warning
    paranoia := 2 },
  { id := "rfi-remote-url"
    pattern := "(?i)(?:https?|ftp)://"
    severity := .notice
    paranoia := 3 }]

/-- `SSRF_RULES`. -/
def ssrfRules : List Rule := [
  { id := "ssrf-cloud-metadata"
    pattern :=
      "(?i)(?:169\\.254\\.169\\.254|metadata\\.google\\.internal" ++
        "|100\\.100\\.100\\.200|fd00:ec2::254)"
    severity := .critical
    paranoia := 1 },
  { id := "ssrf-dangerous-scheme"
    pattern := "(?i)(?:gopher|dict|ldap|tftp|sftp|redis|jar|netdoc)://"
    severity := .critical
    paranoia := 1 },
  { id := "ssrf-loopback"
    pattern :=
      "(?i)(?:\\b(?:127\\.0\\.0\\.1|0\\.0\\.0\\.0|localhost)\\b" ++
        "|\\[(?:0\x7b1,4\x7d:|:)\x7b1,7\x7d0\x7b0,3\x7d1\\]|(?:[/@]" ++
        "|\\A)127\\.1(?:[:/]|\\z))"
    severity := .warning
    paranoia := 2 },
  { id := "ssrf-ip-obfuscation"
    pattern :=
      "(?i)(?:0x7f[0-9a-f]\x7b6\x7d|\\b2130706433\\b" ++
        "|\\b017[0-7]\\.0\\.0\\.0?1)"
    severity := .warning
    paranoia := 2 },
  { id := "ssrf-private-ip"
    pattern :=
      "(?i)\\b(?:10\\.\\d\x7b1,3\x7d\\.\\d\x7b1,3\x7d\\.\\d\x7b1,3" ++
        "\x7d|192\\.168\\.\\d\x7b1,3\x7d\\.\\d\x7b1,3\x7d" ++
        "|172\\.(?:1[6-9]|2\\d" ++
        "|3[01])\\.\\d\x7b1,3\x7d\\.\\d\x7b1,3\x7d" ++
        "|169\\.254\\.\\d\x7b1,3\x7d\\.\\d\x7b1,3\x7d)\\b"
    severity := .notice
    paranoia := 3 }]

/-- `LDAP_RULES`. -/
def ldapRules : List Rule := [
  { id := "ldap-logical-filter"
    pattern := "\\((?:&|\\|)\\("
    severity := .critical
    paranoia := 1 },
  { id := "ldap-extensible-match"
    pattern := "(?i):(?:dn|\\d+(?:\\.\\d+)+):="
    severity := .critical
    paranoia := 1 }]

/-- `NOSQL_RULES`. -/
def nosqlRules : List Rule := [
  { id := "nosql-where-js"
    pattern := "\\$where\\b"
    severity := .critical
    paranoia := 1 },
  { id := "nosql-shell-method"
    pattern :=
      "\\bdb\\.\\w+\\.(?:insert|find|update|remove|save|drop|count" ++
        "|aggregate)\\s*\\("
    severity := .critical
    paranoia := 1 },
  { id := "nosql-js-timing"
    pattern := "do\\s*\\\x7b[^\x7d]*\\\x7d\\s*while\\s*\\("
    severity := .warning
    paranoia := 2 },
  { id := "nosql-operator"
    pattern :=
      "\\$(?:or|and|nor|ne|gt|gte|lt|lte|nin|in|regex|exists|expr" ++
        "|elemMatch)\\b"
    severity := .warning
    paranoia := 2 }]

/-- `MAIL_RULES`. -/
def mailRules : List Rule := [
  { id := "mail-command-injection"
    pattern :=
      "(?i)[\\r\\n]\\s*(?:\\w+\\s+)?(?:CAPABILITY|FETCH|QUIT" ++
        "|RCPT\\s+TO|MAIL\\s+FROM|STARTTLS|EHLO|HELO)\\b"
    severity := .critical
    paranoia := 1 }]

/-- `SSTI_RULES`. -/
def sstiRules : List Rule := [
  { id := "ssti-template-arithmetic"
    pattern := "(?:\\\x7b\\\x7b|[#$*]\\\x7b|@\\()\\s*\\d+\\s*[*+/x-]\\s*\\d+"
    severity := .critical
    paranoia := 1 },
  { id := "ssti-erb-jsp-arithmetic"
    pattern := "<%[=-]?\\s*\\d+\\s*[*+/x-]\\s*\\d+"
    severity := .critical
    paranoia := 1 },
  { id := "ssti-python-dunder"
    pattern :=
      "(?i)__(?:class|mro|subclasses|bases?|globals|builtins|import" ++
        "|subclasshook|reduce)__"
    severity := .critical
    paranoia := 1 },
  { id := "ssti-jinja-object"
    pattern :=
      "(?i)\\\x7b\\\x7b[-+]?\\s*(?:config|self|request|session" ++
        "|cycler|joiner|namespace|lipsum|url_for|get_flashed_messages" ++
        "|current_app)\\b"
    severity := .critical
    paranoia := 1 },
  { id := "ssti-template-statement"
    pattern :=
      "(?i)\\\x7b%[-+]?\\s*(?:for|if|elif|set|with|print|include" ++
        "|import|from|macro|call|filter|block|extends|autoescape" ++
        "|do)(?:\\s+[^%\\s]|\\s*\\()"
    severity := .critical
    paranoia := 1 },
  { id := "ssti-smarty-php"
    pattern := "(?i)\\\x7b/?php\\\x7d"
    severity := .critical
    paranoia := 1 },
  { id := "ssti-freemarker-directive"
    pattern :=
      "(?i)<#(?:assign|list|if|include|macro|function|global" ++
        "|setting)\\b|\\?new\\(\\)|freemarker\\.template"
    severity := .critical
    paranoia := 1 }]

/-- `SCANNER_RULES`. -/
def scannerRules : List Rule := [
  { id := "scanner-tool-ua"
    pattern :=
      "(?i)\\b(?:sqlmap|nikto|nuclei|openvas\\w*|nessus|acunetix" ++
        "|netsparker|wpscan|dirbuster|gobuster|masscan|nmap|hydra|w3af" ++
        "|arachni|zaproxy|burpsuite|fuzz faster u fool|ffuf|wfuzz)\\b" ++
        "|\\.nasl\\b"
    severity := .critical
    paranoia := 1 },
  { id := "scanner-oob-interaction"
    pattern :=
      "(?i)\\b(?:burpcollaborator\\.net|interact\\.sh|oast\\.(?:me" ++
        "|fun|pro|live|site|online))\\b"
    severity := .critical
    paranoia := 1 }]

/-- `SSI_RULES`. -/
def ssiRules : List Rule := [
  { id := "ssi-directive"
    pattern :=
      "(?i)<!--#\\s*(?:exec|include|echo|config|printenv|fsize" ++
        "|flastmod|set)\\b"
    severity := .critical
    paranoia := 1 }]

/-- `XXE_RULES`. -/
def xxeRules : List Rule := [
  { id := "xxe-entity-declaration"
    pattern := "(?i)<!ENTITY\\b"
    severity := .critical
    paranoia := 1 },
  { id := "xxe-doctype-external"
    pattern := "(?i)<!DOCTYPE\\b[^\\[>]*\\bSYSTEM\\b"
    severity := .critical
    paranoia := 1 },
  { id := "xxe-utf7-encoding"
    pattern := "(?i)encoding\\s*=\\s*[\"']?\\+?utf-?7\\b"
    severity := .critical
    paranoia := 1 },
  { id := "xxe-xs-include-namespace"
    pattern := "(?i)<xs:include\\b[^>]*\\bnamespace\\s*="
    severity := .critical
    paranoia := 1 },
  { id := "xxe-schemalocation-single-url"
    pattern :=
      "(?i)\\bxsi:schemalocation\\s*=\\s*[\"']\\s*https?://[^\"'\\s]*" ++
        "\\s*[\"']"
    severity := .critical
    paranoia := 1 }]

/-! ## Header injection -/

/-- The fields a header-injection rule reads. -/
inductive Scope
  | all
  | nonBody
  | hostHeaders
  | body
deriving DecidableEq

/-- A header-injection rule. -/
structure HdrRule where
  id : String
  pattern : String
  severity : Severity
  paranoia : Nat
  scope : Scope
deriving DecidableEq

/-- `HEADER_INJECTION_RULES`. -/
def headerInjectionRules : List HdrRule := [
  { id := "hdr-crlf-header-injection"
    pattern :=
      "(?i)[\\r\\n]\\s*(?:set-cookie|location|content-type" ++
        "|content-length|content-disposition|refresh|link" ++
        "|x-forwarded-for|x-forwarded-host|host)\\s*:"
    severity := .critical
    paranoia := 1
    scope := .all },
  { id := "hdr-crlf-control-char"
    pattern := "[\\r\\n]"
    severity := .warning
    paranoia := 2
    scope := .nonBody },
  { id := "hdr-host-injection"
    pattern := "(?i)(?:[/@]|https?:)"
    severity := .warning
    paranoia := 2
    scope := .hostHeaders },
  { id := "hdr-crlf-in-body"
    pattern := "[\\r\\n]"
    severity := .notice
    paranoia := 3
    scope := .body }]

end LightWaf.Detection
