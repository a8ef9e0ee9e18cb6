/-!
# Suffixes of host names

The tables of name endings that tell public hosts from hosts of a local
network.
-/

namespace ProxyLint

namespace Host

/-- Generic, country and infrastructure top-level domains. -/
def publicSuffixes : List String :=
  ["com", "net", "org", "info", "biz", "io", "co", "app", "dev", "cloud",
    "online", "site", "website", "tech", "store", "shop", "blog", "xyz",
    "me", "tv", "cc", "ws", "mobi", "name", "pro", "aero", "asia", "cat",
    "coop", "jobs", "museum", "travel", "xxx", "post", "tel", "agency",
    "consulting", "digital", "email", "global", "group", "guru", "host",
    "link", "live", "media", "network", "news", "plus", "press", "services",
    "social", "solutions", "space", "studio", "support", "systems", "today",
    "tools", "video", "world", "zone", "uk", "de", "fr", "nl", "ru", "cn",
    "jp", "br", "au", "ca", "in", "it", "es", "pl", "se", "no", "fi", "dk",
    "at", "ch", "be", "cz", "hu", "ro", "ua", "kr", "tw", "hk", "sg", "my",
    "th", "ph", "id", "vn", "nz", "za", "mx", "ar", "cl", "pe", "ve", "ec",
    "pt", "gr", "tr", "il", "ae", "sa", "eg", "ng", "ke", "ie", "is", "ee",
    "lv", "lt", "sk", "si", "hr", "bg", "rs", "by", "kz", "uz", "az", "ge",
    "am", "md", "pk", "bd", "lk", "us", "eu", "edu", "gov", "mil", "int"]

def compoundSuffixes : List String :=
  ["co.uk", "org.uk", "me.uk", "ltd.uk", "plc.uk", "net.uk", "sch.uk",
    "com.au", "net.au", "org.au", "edu.au", "gov.au", "asn.au", "id.au",
    "com.br", "net.br", "org.br", "gov.br", "edu.br", "co.nz", "net.nz",
    "org.nz", "govt.nz", "ac.nz", "co.jp", "or.jp", "ne.jp", "ac.jp",
    "go.jp", "com.cn", "net.cn", "org.cn", "gov.cn", "edu.cn", "co.kr",
    "or.kr", "ne.kr", "go.kr", "ac.kr", "com.mx", "net.mx", "org.mx",
    "gob.mx", "edu.mx", "com.ar", "net.ar", "org.ar", "gov.ar", "edu.ar",
    "com.tw", "net.tw", "org.tw", "gov.tw", "edu.tw", "com.hk", "net.hk",
    "org.hk", "gov.hk", "edu.hk", "com.sg", "net.sg", "org.sg", "gov.sg",
    "edu.sg", "co.in", "net.in", "org.in", "gov.in", "ac.in", "co.za",
    "net.za", "org.za", "gov.za", "ac.za", "com.tr", "net.tr", "org.tr",
    "gov.tr", "edu.tr", "co.il", "net.il", "org.il", "gov.il", "ac.il",
    "com.ua", "net.ua", "org.ua", "gov.ua", "edu.ua", "com.pl", "net.pl",
    "org.pl", "gov.pl", "edu.pl"]

/-- Endings of intranet, reserved and service-discovery names. -/
def localSuffixes : List String :=
  [".intranet", ".internal", ".private", ".corp", ".home", ".lan", ".local",
    ".localhost", ".localdomain", ".test", ".example", ".invalid", ".onion",
    ".svc", ".svc.cluster", ".svc.cluster.local", ".pod",
    ".pod.cluster.local", ".default", ".default.svc",
    ".default.svc.cluster.local", ".consul", ".service.consul",
    ".node.consul", ".marathon.mesos", ".mesos", ".rancher.internal",
    ".docker", ".docker.internal", ".ecs.internal"]

end Host

end ProxyLint
