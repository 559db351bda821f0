import TlsGate.Policy.ClientAuth

/-!
The catalogue of what application paths can name: the modules of the program, the definitions in
them, and what these have as attributes. Names that a module takes from elsewhere lead to where they
are defined.
-/

set_option autoImplicit false
set_option relaxedAutoImplicit false

namespace TlsGate.Command

open Policy (ClientAuth)

inductive Entity where
  | module (name : String)
  | type (home name : String)
  | function (home name : String)
  | text (s : String)
  | number (n : Int)
  | flag (b : Bool)
  | mode (m : ClientAuth)
  /-- Anything else: what it is called when it lacks an attribute, and what is known of the place
  and the name of its definition. -/
  | object (called : String) (home? name? : Option String)
  deriving DecidableEq, Repr

abbrev Names := List (String × Entity)

namespace Catalog

def plain (type : String) : Entity := .object ("'" ++ type ++ "' object") none none

def generic (origin name : String) : Entity :=
  .object ("type object '" ++ origin ++ "'") (some "typing") (some name)

/-- A special form, which says nothing but the name of an attribute that it lacks. -/
def form (name : String) : Entity := .object "" (some "typing") (some name)

def absent : Entity := plain "NoneType"

def functions (home : String) (names : List String) : Names :=
  names.map fun n => (n, .function home n)

def types (home : String) (names : List String) : Names := names.map fun n => (n, .type home n)

def methods (home type : String) (names : List String) : Names :=
  names.map fun n => (n, .function home (type ++ "." ++ n))

def properties (names : List String) : Names := names.map fun n => (n, plain "property")

def modules (names : List (String × String)) : Names := names.map fun (n, m) => (n, .module m)

def record (home type : String) : Names :=
  methods home type ["__init__", "__repr__", "__eq__"] ++
    [("__dataclass_fields__", plain "dict"), ("__match_args__", plain "tuple")]

def frozenRecord (home type : String) : Names :=
  record home type ++ methods home type ["__hash__", "__setattr__", "__delattr__"]

def mark : Names := [("annotations", .object "'_Feature' object" (some "__future__") none)]

def log : Names := [("logger", .object "'Logger' object" (some "logging") none)]

def configHome : String := "hotls._configuration"
def errorsHome : String := "hotls._errors"
def policyHome : String := "hotls._policy"
def modelsHome : String := "hotls.http._models"
def handlerHome : String := "hotls.http._handler"
def networkingHome : String := "hotls.networking._networking"
def secureHome : String := "hotls.networking._openssl"
def listenerHome : String := "hotls.networking._tls"
def serverHome : String := "hotls.server._server"
def addressHome : String := "hotls.server._models"
def listenHome : String := "hotls.server._listen"
def mainHome : String := "hotls.cli._main"
def commonHome : String := "hotls.cli._options.common"
def optionsHome : String := "hotls.cli._options.server"
def helloHome : String := "hotls.http.examples.hello"

def errorTypes : List String :=
  ["BuildError", "CertificateError", "FileError", "InvalidModeError", "ParseError",
    "TLSConfigError"]

def addressType : Entity := generic "tuple" "Tuple"
def callableType : Entity := generic "Callable" "Callable"
def sequenceType : Entity := generic "Sequence" "Sequence"
def unionType : Entity := form "Union"
def anyType : Entity := generic "Any" "Any"

def byteStream : Names := [("ByteStream", .type "anyio.abc" "ByteStream")]

def policyTypes : Names :=
  types policyHome ["ClientAuth", "SecurityPolicy", "TLSCertificate", "TrustPool"] ++
    [("CertificateProvider", callableType), ("TLSContextType", unionType)]

def policyFunctions : Names :=
  functions policyHome ["build_policy", "load_certificate", "load_policy", "load_trust_pool"]

def members : List (String × Names) := [
  ("hotls",
    types configHome ["TLSConfig"] ++ functions configHome ["load_tls_config"] ++
      types errorsHome errorTypes ++ policyTypes ++ policyFunctions ++
      [("AddressType", addressType), ("__version__", .text "0.1")] ++
      modules [("_configuration", configHome), ("_errors", errorsHome), ("_policy", policyHome),
        ("_typing", "hotls._typing"), ("cli", "hotls.cli"), ("http", "hotls.http"),
        ("networking", "hotls.networking"), ("server", "hotls.server")]),
  (configHome,
    mark ++ log ++
      modules [("dataclasses", "dataclasses"), ("logging", "logging"), ("yaml", "yaml")] ++
      [("Any", anyType), ("SECTION", .text "tlsConfig"), ("_FIELDS", plain "dict")] ++
      types errorsHome ["FileError", "ParseError"] ++ types configHome ["TLSConfig"] ++
      functions configHome ["load_tls_config"]),
  (errorsHome, mark ++ types errorsHome errorTypes),
  (policyHome,
    mark ++ log ++
      modules [("dataclasses", "dataclasses"), ("enum", "enum"), ("functools", "functools"),
        ("logging", "logging"), ("re", "re"), ("ssl", "ssl"), ("x509", "cryptography.x509"),
        ("serialization", "cryptography.hazmat.primitives.serialization"), ("SSL", "OpenSSL.SSL"),
        ("crypto", "OpenSSL.crypto")] ++
      [("Callable", callableType), ("Sequence", sequenceType), ("Union", unionType),
        ("UnsupportedAlgorithm", .type "cryptography.exceptions" "UnsupportedAlgorithm"),
        ("PrivateKeyTypes", unionType),
        ("_PEM_CERTIFICATE", .object "'re.Pattern' object" (some "re") none),
        ("_CLIENT_AUTH_NAMES", plain "dict")] ++
      types configHome ["TLSConfig"] ++ functions configHome ["load_tls_config"] ++
      types errorsHome ["BuildError", "CertificateError", "FileError", "InvalidModeError",
        "TLSConfigError"] ++
      policyTypes ++ policyFunctions ++
      functions policyHome ["_read_file", "_public_key_der", "_accept_any_certificate",
        "_accept_verified_certificate", "_alpn_selector"]),
  ("hotls._typing", mark ++ [("Tuple", addressType), ("AddressType", addressType)]),
  ("hotls.cli",
    functions mainHome ["run"] ++
      modules [("_main", mainHome), ("_options", "hotls.cli._options")]),
  (mainHome,
    mark ++ modules [("argparse", "argparse"), ("dataclasses", "dataclasses")] ++
      types errorsHome ["TLSConfigError"] ++ [("version", .text "0.1")] ++
      types handlerHome ["HTTPHandler"] ++ types serverHome ["Server"] ++
      functions listenHome ["listen"] ++ types commonHome ["LoggingOptions", "LoopOptions"] ++
      types optionsHome ["ServerOptions"] ++ types mainHome ["ServerCommand"] ++
      functions mainHome ["run"]),
  ("hotls.cli._options", modules [("common", commonHome), ("server", optionsHome)]),
  (commonHome,
    mark ++ modules [("argparse", "argparse"), ("dataclasses", "dataclasses"),
        ("logging", "logging"), ("anyio", "anyio")] ++
      [("Any", anyType), ("Callable", callableType), ("Coroutine", generic "Coroutine" "Coroutine"),
        ("_BACKENDS", plain "dict")] ++
      types commonHome ["LoggingOptions", "LoopOptions"]),
  (optionsHome,
    mark ++ modules [("argparse", "argparse"), ("dataclasses", "dataclasses"),
        ("importlib", "importlib")] ++
      [("Any", anyType), ("DEFAULT_APP", .text "hotls.http.examples.hello:application")] ++
      types addressHome ["ListenAddress"] ++ types optionsHome ["ServerOptions"] ++
      functions optionsHome ["import_app"]),
  ("hotls.http",
    types handlerHome ["HTTPHandler"] ++ types modelsHome ["Request", "Response"] ++
      [("AppType", callableType), ("HeadersType", sequenceType), ("HeaderType", addressType)] ++
      modules [("_handler", handlerHome), ("_models", modelsHome),
        ("examples", "hotls.http.examples")]),
  (handlerHome,
    mark ++ log ++ modules [("logging", "logging"), ("anyio", "anyio"), ("h11", "h11")] ++
      [("NoReturn", form "NoReturn"), ("AppType", callableType), ("HeadersType", sequenceType)] ++
      byteStream ++ types modelsHome ["Request", "Response"] ++
      functions handlerHome ["_response_headers"] ++ types handlerHome ["HTTPHandler"]),
  (modelsHome,
    mark ++ modules [("dataclasses", "dataclasses")] ++
      [("Awaitable", generic "Awaitable" "Awaitable"), ("Callable", callableType),
        ("List", generic "list" "List"), ("Sequence", sequenceType), ("Tuple", addressType),
        ("HeaderType", addressType), ("HeadersType", sequenceType), ("AppType", callableType)] ++
      types modelsHome ["Request", "Response"]),
  ("hotls.http.examples", modules [("hello", helloHome)]),
  (helloHome,
    mark ++ types modelsHome ["Request", "Response"] ++ functions helloHome ["application"]),
  ("hotls.networking",
    types networkingHome ["SystemNetworking", "TCPServerNetworking"] ++
      functions networkingHome ["static_policy"] ++ types secureHome ["OpenSSLStream"] ++
      types listenerHome ["PolicyTLSListener"] ++ [("PolicyFactoryType", callableType)] ++
      byteStream ++
      modules [("_networking", networkingHome), ("_openssl", secureHome), ("_tls", listenerHome),
        ("_typing", "hotls.networking._typing")]),
  (networkingHome,
    mark ++ modules [("anyio", "anyio")] ++
      [("ABCMeta", .type "abc" "ABCMeta"), ("abstractmethod", .function "abc" "abstractmethod"),
        ("Sequence", sequenceType), ("cast", .function "typing" "cast"),
        ("Listener", .type "anyio.abc" "Listener"), ("AddressType", addressType),
        ("PolicyFactoryType", callableType)] ++
      types policyHome ["SecurityPolicy"] ++ types listenerHome ["PolicyTLSListener"] ++
      byteStream ++ types networkingHome ["SystemNetworking", "TCPServerNetworking"] ++
      functions networkingHome ["static_policy"]),
  (secureHome,
    mark ++ modules [("functools", "functools"), ("anyio", "anyio"), ("SSL", "OpenSSL.SSL"),
        ("crypto", "OpenSSL.crypto")] ++
      [("Any", anyType), ("Callable", callableType), ("Mapping", generic "Mapping" "Mapping"),
        ("TypeVar", .type "typing" "TypeVar"),
        ("TLSAttribute", .type "anyio.streams.tls" "TLSAttribute"),
        ("T", .object "'TypeVar' object" (some secureHome) (some "T"))] ++
      byteStream ++ types secureHome ["OpenSSLStream"]),
  (listenerHome,
    mark ++ log ++ modules [("functools", "functools"), ("logging", "logging"), ("anyio", "anyio"),
        ("SSL", "OpenSSL.SSL")] ++
      [("Any", anyType), ("Callable", callableType), ("Mapping", generic "Mapping" "Mapping"),
        ("Sequence", sequenceType), ("Listener", .type "anyio.abc" "Listener"),
        ("SocketAttribute", .type "anyio.abc" "SocketAttribute"),
        ("TaskGroup", .type "anyio.abc" "TaskGroup"),
        ("TLSStream", .type "anyio.streams.tls" "TLSStream"),
        ("TLSContextType", unionType), ("PolicyFactoryType", callableType)] ++
      types errorsHome ["TLSConfigError"] ++ types policyHome ["SecurityPolicy"] ++
      types secureHome ["OpenSSLStream"] ++ byteStream ++
      types listenerHome ["PolicyTLSListener"]),
  ("hotls.networking._typing", mark ++ modules [("anyio", "anyio")] ++ byteStream),
  ("hotls.server",
    functions listenHome ["listen"] ++ types addressHome ["ListenAddress"] ++
      types serverHome ["Server"] ++ [("HandlerType", callableType)] ++
      modules [("_listen", listenHome), ("_models", addressHome), ("_server", serverHome)]),
  (listenHome,
    mark ++ modules [("functools", "functools"), ("anyio", "anyio")] ++
      [("TaskStatus", .type "anyio.abc" "TaskStatus"), ("AddressType", addressType)] ++
      functions policyHome ["load_policy"] ++ types serverHome ["Server"] ++
      functions listenHome ["listen"]),
  (addressHome,
    mark ++ [("NamedTuple", .function "typing" "NamedTuple"),
        ("urlsplit", .function "urllib.parse" "urlsplit")] ++
      types addressHome ["ListenAddress"]),
  (serverHome,
    mark ++ log ++ modules [("logging", "logging"), ("anyio", "anyio")] ++
      [("Any", anyType), ("Callable", callableType), ("Coroutine", generic "Coroutine" "Coroutine"),
        ("Sequence", sequenceType), ("Listener", .type "anyio.abc" "Listener"),
        ("SocketAttribute", .type "anyio.abc" "SocketAttribute"),
        ("TaskStatus", .type "anyio.abc" "TaskStatus"), ("AddressType", addressType),
        ("PolicyFactoryType", callableType), ("HandlerType", callableType)] ++
      types policyHome ["SecurityPolicy"] ++ byteStream ++
      types networkingHome ["SystemNetworking", "TCPServerNetworking"] ++
      functions networkingHome ["static_policy"] ++ types addressHome ["ListenAddress"] ++
      types serverHome ["Server"])]

def packages : List String :=
  ["hotls", "hotls.cli", "hotls.cli._options", "hotls.http", "hotls.http.examples",
    "hotls.networking", "hotls.server"]

def foreignPackages : List String :=
  ["OpenSSL", "anyio", "anyio.abc", "anyio.streams", "asyncio", "collections", "cryptography",
    "cryptography.hazmat", "cryptography.hazmat.primitives",
    "cryptography.hazmat.primitives.serialization", "cryptography.x509", "h11", "http", "importlib",
    "json", "logging", "re", "urllib", "yaml"]

def foreignModules : List String :=
  ["OpenSSL.SSL", "OpenSSL.crypto", "abc", "anyio.streams.tls", "anyio.to_thread", "argparse",
    "builtins", "dataclasses", "enum", "functools", "math", "os", "ssl", "string", "sys", "time",
    "types", "typing", "urllib.parse"]

def errorMethods : Names :=
  ["add_note", "with_traceback"].map fun n =>
    (n, .object "'method_descriptor' object" none (some ("BaseException." ++ n)))

def typeMembers (home name : String) : Names :=
  let methods := methods home name
  match name with
  | "TLSConfig" =>
    ["cert_path", "key_path", "server_name", "client_auth", "client_cas"].map
      (fun n => (n, Entity.text "")) ++ methods ["from_document"] ++ frozenRecord home name
  | "ClientAuth" =>
    ClientAuth.all.map (fun m => (m.label, Entity.mode m)) ++ methods ["parse"] ++
      properties
        ["requires_certificate", "accepts_untrusted", "verify_mode", "openssl_verify_mode"] ++
      [("__members__", plain "mappingproxy")]
  | "TLSCertificate" =>
    methods ["install", "_install_openssl"] ++ properties ["leaf"] ++ frozenRecord home name
  | "TrustPool" => methods ["__len__"] ++ properties ["cadata"] ++ frozenRecord home name
  | "SecurityPolicy" =>
    [("certificate", absent), ("server_name", absent), ("client_cas", absent),
      ("client_auth", .mode .none)] ++
      methods ["ssl_context", "openssl_context", "tls_context", "_install_client_cas"] ++
      frozenRecord home name
  | "FileError" => methods ["__init__"] ++ errorMethods
  | "InvalidModeError" => methods ["__init__"] ++ errorMethods
  | "BuildError" => errorMethods
  | "CertificateError" => errorMethods
  | "ParseError" => errorMethods
  | "TLSConfigError" => errorMethods
  | "Request" =>
    [("body", plain "bytes"), ("http_version", .text "HTTP/1.1")] ++ methods ["get_header"] ++
      record home name
  | "Response" => [("status", .number 200), ("body", plain "bytes")] ++ record home name
  | "HTTPHandler" =>
    [("alpn_protocols", plain "list"), ("_max_receive_size", .number 65536)] ++
      methods ["__init__", "__call__", "_serve", "_run_app", "_receive_request", "_next_event",
        "_send_response", "_body_too_large"]
  | "TCPServerNetworking" => methods ["listen_tcp", "listen_tcp_tls"]
  | "SystemNetworking" =>
    methods ["listen_tcp"] ++ Catalog.methods home "TCPServerNetworking" ["listen_tcp_tls"]
  | "OpenSSLStream" =>
    [("_transport_eof", .flag false), ("_max_bytes", .number 65536)] ++
      methods ["__init__", "wrap", "receive", "send", "send_eof", "aclose", "_alpn_protocol",
        "_peer_certificate_binary", "_call", "_feed", "_flush"] ++ properties ["extra_attributes"]
  | "PolicyTLSListener" =>
    methods ["__init__", "serve", "aclose", "_handshake", "_create_context", "_log_rejected"] ++
      properties ["extra_attributes"]
  | "Server" =>
    [("tls_policy", absent), ("tls_policy_factory", absent)] ++
      methods ["__init__", "serve", "serve_tls", "_run", "_handle_connection"]
  | "ListenAddress" =>
    methods ["parse", "__repr__", "__str__"] ++ Catalog.methods "collections" name ["_make",
        "_asdict", "_replace"] ++
      [("host", plain "_collections._tuplegetter"), ("port", plain "_collections._tuplegetter"),
        ("_fields", plain "tuple"), ("_field_defaults", plain "dict")] ++
      ["count", "index"].map fun n =>
        (n, .object "'method_descriptor' object" none (some ("tuple." ++ n)))
  | "ServerCommand" => methods ["parse", "from_args", "run", "_run_server"] ++ record home name
  | "LoggingOptions" => methods ["parse", "from_args", "configure"] ++ record home name
  | "LoopOptions" => methods ["parse", "from_args", "run"] ++ record home name
  | "ServerOptions" => methods ["parse", "from_args"] ++ record home name
  | _ => []

end Catalog

end TlsGate.Command
