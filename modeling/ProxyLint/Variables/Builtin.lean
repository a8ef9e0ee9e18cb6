import ProxyLint.Text.Search

/-!
# Request variables

Some variables are provided by the server while it handles a request.  Their
values cannot be known when the configuration is loaded.  Names are compared
without regard to the case of ASCII letters.
-/

namespace ProxyLint

namespace Variable

/-- The names of single request variables. -/
def requestNames : List String :=
  ["args", "binary_remote_addr", "body_bytes_sent", "bytes_sent",
    "connection", "connection_requests", "connection_time", "content_length",
    "content_type", "document_root", "document_uri", "fastcgi_path_info",
    "fastcgi_script_name", "host", "hostname", "https", "is_args",
    "limit_rate", "msec", "nginx_version", "pid", "pipe",
    "proxy_add_x_forwarded_for", "proxy_host", "proxy_port",
    "proxy_protocol_addr", "proxy_protocol_port", "query_string",
    "realip_remote_addr", "realip_remote_port", "realpath_root",
    "remote_addr", "remote_port", "remote_user", "request", "request_body",
    "request_body_file", "request_completion", "request_filename",
    "request_id", "request_length", "request_method", "request_time",
    "request_uri", "scheme", "server_addr", "server_name", "server_port",
    "server_protocol", "ssl_client_cert", "ssl_client_s_dn",
    "ssl_client_verify", "ssl_protocol", "ssl_server_name", "status",
    "time_iso8601", "time_local", "upstream_addr", "upstream_response_time",
    "upstream_status", "uri"]

/-- How the names of families of request variables start. -/
def requestFamilies : List String :=
  ["arg_", "cookie_", "http_", "jwt_", "sent_http_", "sent_trailer_",
    "upstream_cookie_", "upstream_http_", "upstream_trailer_"]

/-- Whether a name, without its dollar sign, is a request variable. -/
def isBuiltin (name : String) : Bool :=
  let lowered := Text.lowerAscii name
  requestNames.contains lowered ||
    requestFamilies.any fun family =>
      family.toList.isPrefixOf lowered.toList

end Variable

end ProxyLint
